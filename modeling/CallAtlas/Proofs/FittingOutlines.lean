import CallAtlas.Project.BodyStore
import CallAtlas.Proofs.Attribution

/-!
Outlines whose nodes stand between characters of the text. The text of each type can then be cut out
and searched, so that bodies are looked up in it without an error.
-/

namespace CallAtlas

namespace Java

theorem mem_nodeSegments {nodes : List Node} {node : Node} {segment : Segment}
    (member : node ∈ nodes) (below : segment ∈ node.segments) : segment ∈ nodeSegments nodes := by
  induction nodes with
  | nil => cases member
  | cons first rest ih =>
    rw [nodeSegments, List.mem_append]
    rcases List.mem_cons.mp member with rfl | later
    · exact .inl below
    · exact .inr (ih later)

theorem Node.segment_mem_segments {node found : Node} {address : Address}
    (here : node.at? address = some found) :
    found.segment ∈ node.segments := by
  induction address generalizing node with
  | nil =>
    cases here
    cases found
    exact List.mem_cons_self
  | cons i address ih =>
    obtain ⟨child, isChild, below⟩ := Node.at?_cons_eq_some.mp here
    cases node
    exact List.mem_cons_of_mem _ (mem_nodeSegments (List.mem_of_getElem? isChild) (ih below))

theorem Segment.exists_of_fits {source : List Char} {segment : Segment}
    (fits : segment.fits source = true) :
    ∃ chars, charSegment source segment = .ok chars ∧ chars.Within source := by
  unfold Segment.fits at fits
  split at fits
  case h_1 chars cut =>
    refine ⟨chars, cut, of_decide_eq_true fits, ?_⟩
    obtain ⟨_, _, rest⟩ := bind_eq_ok.mp cut
    obtain ⟨_, counted, finish⟩ := bind_eq_ok.mp rest
    cases finish
    exact charsWithin_le counted
  case h_2 => cases fits

theorem exists_of_fits {source : List Char} {segments : List Segment}
    (fits : ∀ segment ∈ segments, segment.fits source = true) :
    ∃ parts, segments.mapM (charSegment source) = .ok parts ∧
      ∀ part ∈ parts, part.Within source := by
  induction segments with
  | nil => exact ⟨[], rfl, List.forall_mem_nil _⟩
  | cons segment rest ih =>
    rw [List.forall_mem_cons] at fits
    obtain ⟨part, cut, within⟩ := Segment.exists_of_fits fits.1
    obtain ⟨parts, cuts, withins⟩ := ih fits.2
    refine ⟨part :: parts, ?_, List.forall_mem_cons.mpr ⟨within, withins⟩⟩
    rw [List.mapM_cons, cut, cuts]
    rfl

/-- The text of a type that the index of a fitting outline has can be cut out, and lines up with the
source. -/
theorem Outline.Fits.exists_ownText {outline : Outline} {source : List Char}
    (fits : outline.Fits source) {name : String} {type : SourceType}
    (present : outline.index.get? name = some type) :
    ∃ own, type.ownText source = .ok own ∧ own.length = source.length := by
  have places : ∀ segment ∈ ⟨type.start, type.stop⟩ :: type.foreign,
      segment.fits source = true := by
    intro segment member
    obtain ⟨address, found, here, rfl⟩ := index_places present segment member
    exact List.all_eq_true.mp fits _ (Node.segment_mem_segments here)
  rw [List.forall_mem_cons] at places
  obtain ⟨whole, wholeCut, wholeWithin⟩ := Segment.exists_of_fits places.1
  obtain ⟨parts, partsCut, partsWithin⟩ := exists_of_fits places.2
  exact ⟨_, type.ownText_of_parts wholeCut partsCut,
    SourceType.length_foldl_keep wholeWithin partsWithin⟩

end Java

namespace Project

open Java

/-- The source of a type gives each method a body or none, and never fails. -/
theorem TypeSource.exists_body? (source : TypeSource) (typeName method : String) :
    ∃ found, source.body? typeName method = .ok found := by
  suffices body : ∃ body, sourceBody source.text source.outline.index typeName method = .ok body by
    obtain ⟨body, found⟩ := body
    rw [TypeSource.body?, found]
    split
    · exact ⟨none, rfl⟩
    · exact ⟨_, rfl⟩
  unfold sourceBody
  split
  case h_1 => exact ⟨none, rfl⟩
  case h_2 declared present =>
    obtain ⟨own, cut, aligned⟩ := source.fits.exists_ownText present
    have searched : ∃ body, extractBody source.text method.toList (some own) = .ok body := by
      by_cases creation : method.toList.head? = some '<'
      · exact ⟨none, by rw [extractBody, if_pos creation]⟩
      · exact ⟨_, extractBody_aligned creation aligned⟩
    obtain ⟨body, searched⟩ := searched
    have cutOut : (declared.ownText source.text).mapError SourceError.cut = .ok own := by
      rw [cut]
      rfl
    have found :
        (extractBody source.text method.toList (some own)).mapError SourceError.search =
        .ok body := by
      rw [searched]
      rfl
    cases body with
    | none => exact ⟨_, bind_eq_ok.mpr ⟨own, cutOut, bind_eq_ok.mpr ⟨none, found, rfl⟩⟩⟩
    | some text => exact ⟨_, bind_eq_ok.mpr ⟨own, cutOut, bind_eq_ok.mpr ⟨some text, found, rfl⟩⟩⟩

end Project

end CallAtlas
