namespace RowStore.Text

def covers : List (Nat × Nat) → Nat → Bool
  | [], _ => false
  | (first, last) :: rest, n => if n < first then false else n ≤ last || covers rest n

end RowStore.Text
