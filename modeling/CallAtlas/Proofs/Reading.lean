import CallAtlas.Proofs.BigEndian
import CallAtlas.Proofs.Outcomes

/-! Readers that take exactly the bytes of what they read, whatever comes after these. -/

namespace CallAtlas.ClassFile

variable {α β : Type}

def Reads (reader : Reader α) (bytes : List UInt8) (value : α) : Prop :=
  ∀ offset rest, reader.run ⟨offset, bytes ++ rest⟩ = .ok (value, ⟨offset + bytes.length, rest⟩)

namespace Reads

theorem pure (value : α) : Reads (pure value) [] value := by
  intro offset rest
  rfl

theorem bind {reader : Reader α} {f : α → Reader β} {bytes more : List UInt8} {a : α} {b : β}
    (first : Reads reader bytes a) (second : Reads (f a) more b) :
    Reads (reader >>= f) (bytes ++ more) b := by
  intro offset rest
  rw [StateT.run_bind, List.append_assoc, first offset (more ++ rest)]
  change (f a).run _ = _
  rw [second, List.length_append, Nat.add_assoc]

theorem last {reader : Reader α} {f : α → Reader β} {bytes : List UInt8} {a : α} {b : β}
    (first : Reads reader bytes a) (second : Reads (f a) [] b) : Reads (reader >>= f) bytes b := by
  have step := first.bind second
  rwa [List.append_nil] at step

theorem then_pure {reader : Reader α} {bytes : List UInt8} {a : α} (f : α → β)
    (first : Reads reader bytes a) :
    Reads (reader >>= fun a => Pure.pure (f a)) bytes (f a) :=
  first.last (pure (f a))

theorem lift_bind {x : Except FormatError α} {f : α → Reader β} {bytes : List UInt8} {a : α} {b : β}
    (known : x = .ok a) (second : Reads (f a) bytes b) : Reads (liftM x >>= f) bytes b := by
  intro offset rest
  rw [known]
  exact second offset rest

theorem need {reader : Reader α} {bytes : List UInt8} {value : α} {n : Nat}
    (enough : n ≤ bytes.length) (reads : Reads reader bytes value) :
    Reads (Reader.need n >>= fun _ => reader) bytes value := by
  intro offset rest
  have there : holds n (bytes ++ rest) = true := by
    rw [holds_iff, List.length_append]
    omega
  rw [StateT.run_bind]
  change (if holds n (bytes ++ rest) then _ else _ : Except FormatError (Unit × Cursor)) >>= _ = _
  rw [if_pos there]
  exact reads offset rest

theorem bigEndian (width : Nat) (bytes : List UInt8) (length : bytes.length = width) :
    Reads (Reader.number width) bytes (bigEndian bytes) := by
  intro offset rest
  have there : holds width (bytes ++ rest) = true := by
    rw [holds_iff, List.length_append]
    omega
  change (if holds width (bytes ++ rest) then _ else _ : Except FormatError (Nat × Cursor)) = _
  rw [if_pos there, List.take_left' length, List.drop_left' length, length]

theorem number (width n : Nat) (bound : n < Nat.pow 256 width) :
    Reads (Reader.number width) (bytesOf width n) n := by
  have step := bigEndian width (bytesOf width n) (length_bytesOf width n)
  rwa [bigEndian_bytesOf bound] at step

theorem u1 (n : UInt8) : Reads Reader.u1 (bytesOf 1 n.toNat) n.toNat :=
  number 1 n.toNat n.toNat_lt

theorem u2 (n : UInt16) : Reads Reader.u2 (bytesOf 2 n.toNat) n.toNat :=
  number 2 n.toNat n.toNat_lt

theorem u4 (n : UInt32) : Reads Reader.u4 (bytesOf 4 n.toNat) n.toNat :=
  number 4 n.toNat n.toNat_lt

theorem block (bytes : List UInt8) : Reads (Reader.block bytes.length) bytes bytes := by
  intro offset rest
  have there : holds bytes.length (bytes ++ rest) = true := by simp
  change (if holds bytes.length (bytes ++ rest) then _
    else _ : Except FormatError (List UInt8 × Cursor)) = _
  rw [if_pos there, List.take_left, List.drop_left]

theorem times {item : Reader β} {encode : α → List UInt8} {xs : List α} {ys : List β}
    (each : List.Forall₂ (fun x y => Reads item (encode x) y) xs ys) :
    Reads (Reader.times item xs.length) (xs.flatMap encode) ys := by
  induction each with
  | nil => exact pure []
  | cons first _ ih => exact first.bind (ih.then_pure _)

theorem counted {item : Reader β} {encode : α → List UInt8} {xs : List α} {ys : List β}
    (bound : xs.length < 0x10000) (each : List.Forall₂ (fun x y => Reads item (encode x) y) xs ys) :
    Reads (Reader.counted item) (bytesOf 2 xs.length ++ xs.flatMap encode) ys :=
  (number 2 xs.length bound).bind (times each)

theorem parse {reader : Reader α} {bytes : List UInt8} {value : α}
    (reads : Reads reader bytes value) (rest : List UInt8) :
    reader.parse (bytes ++ rest) = .ok value := by
  rw [Reader.parse, reads]
  rfl

theorem parse_all {reader : Reader α} {bytes : List UInt8} {value : α}
    (reads : Reads reader bytes value) :
    reader.parse bytes = .ok value := by
  have whole := reads.parse []
  rwa [List.append_nil] at whole

end Reads

end CallAtlas.ClassFile
