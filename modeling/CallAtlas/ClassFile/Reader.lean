import CallAtlas.ClassFile.FormatError

/-!
Reading big-endian numbers and blocks from bytes. A reader that needs more bytes than are left fails
at the place where the number or block begins.
-/

namespace CallAtlas.ClassFile

structure Cursor where
  offset : Nat
  rest : List UInt8
  deriving DecidableEq, Repr

abbrev Reader := StateT Cursor (Except FormatError)

def holds : Nat → List UInt8 → Bool
  | 0, _ => true
  | _ + 1, [] => false
  | n + 1, _ :: rest => holds n rest

def bigEndian (bytes : List UInt8) : Nat :=
  bytes.foldl (fun n b => n * 256 + b.toNat) 0

def signed (bits n : Nat) : Int :=
  if n < Nat.pow 2 (bits - 1) then n else (n : Int) - Nat.pow 2 bits

namespace Reader

def fail {α : Type} (error : FormatError) : Reader α := fun _ => .error error

def parse {α : Type} (reader : Reader α) (bytes : List UInt8) : Except FormatError α :=
  (StateT.run reader ⟨0, bytes⟩).map Prod.fst

def need (n : Nat) : Reader Unit := fun c =>
  if holds n c.rest then .ok ((), c) else .error (.truncated c.offset)

def number (n : Nat) : Reader Nat := fun c =>
  if holds n c.rest then .ok (bigEndian (c.rest.take n), ⟨c.offset + n, c.rest.drop n⟩)
  else .error (.truncated c.offset)

def u1 : Reader Nat := number 1

def u2 : Reader Nat := number 2

def u4 : Reader Nat := number 4

def block (n : Nat) : Reader (List UInt8) := fun c =>
  if holds n c.rest then .ok (c.rest.take n, ⟨c.offset + n, c.rest.drop n⟩)
  else .error (.shortBlock n c.offset)

def times {α : Type} (reader : Reader α) : Nat → Reader (List α)
  | 0 => pure []
  | n + 1 => do
    let x ← reader
    let xs ← times reader n
    return x :: xs

def counted {α : Type} (item : Reader α) : Reader (List α) := do
  times item (← u2)

end Reader

end CallAtlas.ClassFile
