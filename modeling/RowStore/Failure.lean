/-! How a computation fails: with an error, which its caller is given, or with a panic, which nobody
answers for and which ends the program. -/
namespace RowStore

/-- What the program does not survive. -/
inductive Panic
  /-- More bytes were asked for than one allocation has. -/
  | capacityOverflow
  /-- A slice does not lie within its bytes. -/
  | outOfBounds
  deriving DecidableEq, Repr

inductive Failure (ε : Type)
  | reported (e : ε)
  | panic (p : Panic)
  deriving DecidableEq, Repr

def Failure.map {ε ε' : Type} (f : ε → ε') : Failure ε → Failure ε'
  | reported e => .reported (f e)
  | panic p => .panic p

end RowStore
