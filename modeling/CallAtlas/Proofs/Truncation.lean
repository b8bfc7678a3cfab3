import CallAtlas.Proofs.ClassFileRoundTrip

/-!
How much of the bytes a reader looks at. What it reads depends on these bytes alone, and with fewer
of them it fails because they end. So a class file has an end of its own, whatever stands behind it.
-/

namespace CallAtlas.ClassFile

def FormatError.IsTruncation : FormatError → Prop
  | .truncated _ | .shortBlock _ _ => True
  | _ => False

namespace Reader

variable {α β : Type}

/-- Reading gives `value` and takes so many of the bytes. It looks at the first `seen` of them: with
the same it gives the same, with fewer it fails. -/
structure Sees (reader : Reader α) (offset : Nat) (bytes : List UInt8) (value : α)
    (taken seen : Nat) : Prop where
  takes : taken ≤ seen
  within : seen ≤ bytes.length
  again : ∀ other : List UInt8, other.take seen = bytes.take seen →
    reader.run ⟨offset, other⟩ = .ok (value, ⟨offset + taken, other.drop taken⟩)
  short : ∀ n < seen, ∃ error : FormatError, error.IsTruncation ∧
    reader.run ⟨offset, bytes.take n⟩ = .error error

def Local (reader : Reader α) : Prop :=
  ∀ offset bytes value rest, reader.run ⟨offset, bytes⟩ = .ok (value, rest) →
    ∃ taken seen, Sees reader offset bytes value taken seen

namespace Sees

variable {reader : Reader α} {f : α → Reader β} {offset : Nat} {bytes : List UInt8} {a : α} {b : β}
  {taken seen more last : Nat}

theorem run_eq (sees : Sees reader offset bytes a taken seen) :
    reader.run ⟨offset, bytes⟩ = .ok (a, ⟨offset + taken, bytes.drop taken⟩) := sees.again bytes rfl

theorem bind (first : Sees reader offset bytes a taken seen)
    (second : Sees (f a) (offset + taken) (bytes.drop taken) b more last) :
    Sees (reader >>= f) offset bytes b (taken + more) (max seen (taken + last)) := by
  have inside := second.within
  rw [List.length_drop] at inside
  have takes := first.takes
  have within := first.within
  have takes' := second.takes
  refine ⟨by omega, by omega, ?_, ?_⟩
  · intro other same
    have front : other.take seen = bytes.take seen := by
      have cut := congrArg (List.take seen) same
      rwa [List.take_take, List.take_take, Nat.min_eq_left (Nat.le_max_left _ _)] at cut
    have back : (other.drop taken).take last = (bytes.drop taken).take last := by
      have room : last ≤ max seen (taken + last) - taken := by omega
      have cut := congrArg (fun part => (part.drop taken).take last) same
      simpa only [List.drop_take, List.take_take, Nat.min_eq_left room] using cut
    rw [StateT.run_bind, first.again other front]
    change (f a).run _ = _
    rw [second.again _ back, List.drop_drop, Nat.add_assoc]
  · intro n below
    rw [StateT.run_bind]
    by_cases early : n < seen
    · obtain ⟨error, truncation, failed⟩ := first.short n early
      exact ⟨error, truncation, by rw [failed]; rfl⟩
    · -- The first step goes as before, so that the second one finds too few bytes.
      have front : (bytes.take n).take seen = bytes.take seen := by
        rw [List.take_take, Nat.min_eq_left (by omega)]
      obtain ⟨error, truncation, failed⟩ := second.short (n - taken) (by omega)
      rw [← List.drop_take] at failed
      refine ⟨error, truncation, ?_⟩
      rw [first.again _ front]
      exact failed

end Sees

namespace Local

variable {reader : Reader α} {f : α → Reader β}

theorem pure (value : α) : Local (pure value : Reader α) := by
  intro offset bytes a rest run
  cases run
  exact ⟨0, 0, Nat.le_refl 0, Nat.zero_le _,
    fun other _ => rfl, fun n below => (Nat.not_lt_zero n below).elim⟩

theorem fail (error : FormatError) : Local (Reader.fail error : Reader α) := by
  intro offset bytes a rest run
  cases run

theorem lift (outcome : Except FormatError α) : Local (liftM outcome : Reader α) := by
  cases outcome with
  | ok value => exact pure value
  | error error => exact fail error

theorem bind (first : Local reader) (rest : ∀ a, Local (f a)) : Local (reader >>= f) := by
  intro offset bytes b last run
  rw [StateT.run_bind] at run
  obtain ⟨⟨a, middle⟩, here, there⟩ := bind_eq_ok.mp run
  obtain ⟨taken, seen, sees⟩ := first offset bytes a middle here
  cases here.symm.trans sees.run_eq
  obtain ⟨more, last, later⟩ := rest a _ _ b _ there
  exact ⟨_, _, sees.bind later⟩

theorem then_pure (g : α → β) (first : Local reader) :
    Local (reader >>= fun a => Pure.pure (g a)) :=
  first.bind fun a => pure (g a)

theorem map (g : α → β) (first : Local reader) : Local (g <$> reader) := by
  rw [map_eq_pure_bind]
  exact first.then_pure g

theorem of_front {n taken : Nat} (front : List UInt8 → α) (takes : taken ≤ n)
    (error : Nat → FormatError) (truncation : ∀ offset, (error offset).IsTruncation) :
    Local (fun c => if holds n c.rest
      then .ok (front (c.rest.take n), ⟨c.offset + taken, c.rest.drop taken⟩)
      else .error (error c.offset) : Reader α) := by
  intro offset bytes value rest run
  simp only [StateT.run, holds_iff] at run
  split at run
  · rename_i within
    cases run
    refine ⟨taken, n, takes, within, ?_, ?_⟩
    · intro other same
      have length := congrArg List.length same
      rw [List.length_take, List.length_take] at length
      simp only [StateT.run, holds_iff]
      rw [if_pos (by omega), same]
    · intro k below
      refine ⟨error offset, truncation offset, ?_⟩
      simp only [StateT.run, holds_iff, List.length_take]
      rw [if_neg (by omega)]
  · cases run

theorem need (n : Nat) : Local (Reader.need n) :=
  of_front (fun _ => ()) (Nat.zero_le n) .truncated fun _ => trivial

theorem number (n : Nat) : Local (Reader.number n) :=
  of_front bigEndian (Nat.le_refl n) .truncated fun _ => trivial

theorem block (n : Nat) : Local (Reader.block n) :=
  of_front id (Nat.le_refl n) (.shortBlock n) fun _ => trivial

theorem times {item : Reader α} (each : Local item) (n : Nat) : Local (Reader.times item n) := by
  induction n with
  | zero => exact pure []
  | succ n ih => exact each.bind fun x => ih.then_pure fun xs => x :: xs

theorem counted {item : Reader α} (each : Local item) : Local (Reader.counted item) :=
  (number 2).bind fun n => each.times n

end Local

end Reader

open Reader

theorem local_pair : Local readPair :=
  (Local.need 4).bind fun _ => (Local.number 2).bind fun _ => (Local.number 2).then_pure _

theorem local_constant (index : Nat) : Local (readConstant index) := by
  refine (Local.number 1).bind fun tag => ?_
  split
  case h_1 =>
    exact (Local.number 2).bind fun n => (Local.block n).bind fun bytes =>
      (Local.lift _).then_pure _
  case h_2 | h_3 => exact (Local.number 4).then_pure _
  case h_4 | h_5 => exact (Local.number 8).then_pure _
  case h_6 | h_7 | h_13 | h_16 | h_17 => exact (Local.number 2).then_pure _
  case h_8 | h_9 | h_10 | h_11 | h_14 | h_15 => exact local_pair.then_pure _
  case h_12 =>
    exact (Local.need 3).bind fun _ => (Local.number 1).bind fun _ => (Local.number 2).then_pure _
  case h_18 => exact Local.fail _

theorem local_slots (places index : Nat) : Local (readSlots places index) := by
  fun_induction readSlots places index with
  | case1 => exact Local.pure []
  | case2 index => exact (local_constant index).then_pure _
  | case3 places index wide plain =>
    refine (local_constant index).bind fun constant => ?_
    split
    · exact wide.then_pure _
    · exact plain.then_pure _

theorem local_pool : Local readPool := by
  refine (Local.number 2).bind fun count => ?_
  split
  · exact Local.pure _
  · exact (local_slots _ 1).then_pure _

theorem local_attributes (pool : Pool) : Local (readAttributes pool) :=
  Local.counted
    ((Local.number 2).bind fun _ => (Local.lift _).bind fun _ => (Local.number 4).bind fun n =>
      (Local.block n).then_pure _)

theorem local_method (pool : Pool) : Local (readMethod pool) :=
  (Local.need 6).bind fun _ => (Local.number 2).bind fun _ => (Local.number 2).bind fun _ =>
    (Local.number 2).bind fun _ =>
    (local_attributes pool).bind fun _ => (Local.lift _).bind fun _ => (Local.lift _).bind fun _ =>
      (Local.lift _).then_pure _

theorem local_header (path : String) : Local (readHeader path) := by
  refine (Local.need 8).bind fun _ => (Local.number 4).bind fun magic =>
    (Local.number 4).bind fun _ => ?_
  split
  · exact Local.fail _
  · exact Local.pure _

theorem local_field (pool : Pool) : Local (skipField pool) :=
  (Local.number 6).bind fun _ => (local_attributes pool).then_pure _

theorem local_type (path : String) : Local (readType path) := by
  refine (local_header path).bind fun _ => local_pool.bind fun pool => ?_
  refine (Local.need 6).bind fun _ => (Local.number 2).bind fun _ => (Local.number 2).bind fun _ =>
    (Local.number 2).bind fun super => ?_
  refine (Local.counted ((Local.number 2).bind fun _ => (Local.lift _).then_pure _)).bind fun _ =>
    ?_
  refine (Local.counted (local_field pool)).bind fun _ =>
    (Local.counted (local_method pool)).bind fun _ => ?_
  refine (local_attributes pool).bind fun _ => (Local.lift _).bind fun _ =>
    (Local.lift _).bind fun _ => ?_
  dsimp only
  split
  · exact (Local.pure none).then_pure _
  · exact ((Local.lift _).map some).then_pure _

theorem parse_eq_ok {α : Type} {reader : Reader α} {bytes : List UInt8} {value : α} :
    reader.parse bytes = .ok value ↔ ∃ rest, reader.run ⟨0, bytes⟩ = .ok (value, rest) := by
  rw [Reader.parse]
  cases reader.run ⟨0, bytes⟩ with
  | error error => simp [Except.map]
  | ok result => simp [Except.map, Prod.ext_iff]

/-- A class file ends somewhere: what stands behind its end does not matter, and cut off before it
the file is refused because it is truncated. -/
theorem parse_ends {bytes : List UInt8} {path : String} {type : CompiledType}
    (accepted : CompiledType.parse bytes path = .ok type) :
    ∃ n ≤ bytes.length,
      (∀ other : List UInt8, other.take n = bytes.take n →
        CompiledType.parse other path = .ok type) ∧
      ∀ k < n, ∃ error : FormatError, error.IsTruncation ∧
        CompiledType.parse (bytes.take k) path = .error error := by
  obtain ⟨rest, run⟩ := parse_eq_ok.mp accepted
  obtain ⟨taken, seen, sees⟩ := local_type path 0 bytes type rest run
  refine ⟨seen, sees.within, ?_, ?_⟩
  · intro other same
    exact parse_eq_ok.mpr ⟨_, sees.again other same⟩
  · intro k below
    obtain ⟨error, truncation, failed⟩ := sees.short k below
    refine ⟨error, truncation, ?_⟩
    rw [CompiledType.parse, Reader.parse, failed]
    rfl

theorem parse_ends_nested :
    CompiledType.parse (nestedInfo.bytes ++ [0xCA, 0xFE]) "B.class" = .ok nestedType ∧
    ∃ n ≤ nestedInfo.bytes.length,
      (∀ other : List UInt8, other.take n = nestedInfo.bytes.take n →
        CompiledType.parse other "B.class" = .ok nestedType) ∧
      ∀ k < n, ∃ error : FormatError, error.IsTruncation ∧
        CompiledType.parse (nestedInfo.bytes.take k) "B.class" = .error error := by
  have reads : Reads (readType "B.class") nestedInfo.bytes nestedType :=
    reads_type rfl nestedInfo_fits
  obtain ⟨n, _, again, short⟩ := parse_ends (reads.parse [0xCA, 0xFE])
  have inside : n ≤ nestedInfo.bytes.length := by
    by_contra behind
    obtain ⟨error, _, failed⟩ := short nestedInfo.bytes.length (by omega)
    rw [List.take_left] at failed
    cases failed.symm.trans reads.parse_all
  refine ⟨reads.parse [0xCA, 0xFE], n, inside, ?_, ?_⟩
  · intro other same
    exact again other (by rw [same, List.take_append_of_le_length inside])
  · intro k below
    have failed := short k below
    rwa [List.take_append_of_le_length (by omega)] at failed

end CallAtlas.ClassFile
