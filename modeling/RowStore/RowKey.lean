import RowStore.Text.Utf8

/-! The key of a row in the store: the table's name, a colon, and the primary key's decimal
text. All rows of a table lie together. -/
namespace RowStore.RowKey

def separator : UInt8 := 0x3A

/-- What every key of a table begins with, and the least of them. -/
def low (table : String) : Bytes := Text.utf8 table ++ [separator]

/-- The bound just above every key of a table. -/
def high (table : String) : Bytes := Text.utf8 table ++ [separator + 1]

def ofText (table primaryKey : String) : Bytes := low table ++ Text.utf8 primaryKey

end RowStore.RowKey
