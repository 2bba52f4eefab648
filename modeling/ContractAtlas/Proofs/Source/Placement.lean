import ContractAtlas.Proofs.Keywords
import ContractAtlas.Proofs.Source.Leftmost
import ContractAtlas.Proofs.Source.Occurrence
import ContractAtlas.Proofs.Source.Parts

/-!
# Where state variables stand

State variables are found by two scans, one for each order of type and visibility, and what
the first one keeps is not read again by the second.  Either scan keeps its occurrences
apart, an occurrence of the second scan is kept only if it is apart from all that were kept
of the first, and no occurrence is empty.  Merged by their starts they are therefore in
strict order and apart from one another, and none of them follows the word `function` within
one statement (`placedApart_stateVariables`).
-/

namespace ContractAtlas.Source

open ContractAtlas.Text

variable {α : Type} {text rest : List Char}

/-! ## Proper tails -/

/-- A tail of a text that leaves out something at the front. -/
def ProperTail (rest text : List Char) : Prop :=
  ∃ piece, piece ≠ [] ∧ text = piece ++ rest

theorem properTail_cons (c : Char) (rest : List Char) : ProperTail rest (c :: rest) :=
  ⟨[c], List.cons_ne_nil c [], rfl⟩

theorem ProperTail.of_suffix {middle : List Char} (htail : ProperTail rest middle)
    (hsuffix : middle <:+ text) : ProperTail rest text := by
  obtain ⟨piece, hne, rfl⟩ := htail
  obtain ⟨front, rfl⟩ := hsuffix
  exact ⟨front ++ piece, List.append_ne_nil_of_right_ne_nil front hne, by simp⟩

theorem ProperTail.of_suffix_left {middle : List Char} (htail : ProperTail middle text)
    (hsuffix : rest <:+ middle) : ProperTail rest text := by
  obtain ⟨piece, hne, rfl⟩ := htail
  obtain ⟨front, rfl⟩ := hsuffix
  exact ⟨piece ++ front, List.append_ne_nil_of_left_ne_nil hne front, by simp⟩

/-! ## The statement of a variable is not empty -/

theorem properTail_of_initialValue? {value : Option (List Char)}
    (hread : initialValue? text = some (value, rest)) : ProperTail rest text := by
  rw [initialValue?.eq_def] at hread
  split at hread
  next more =>
    obtain ⟨-, rfl⟩ := Prod.mk.inj (Option.some.inj hread)
    exact properTail_cons ';' more
  next more =>
    simp only at hread
    split at hread
    · contradiction
    · obtain ⟨left, hmark, hleft⟩ := Option.bind_eq_some_iff.mp hread
      obtain ⟨-, rfl⟩ := Prod.mk.inj (Option.some.inj hleft)
      refine (properTail_cons '=' more).of_suffix_left ?_
      exact (suffix_of_mark? hmark).trans (List.dropWhile_suffix _)
  · contradiction

theorem suffix_of_name? {name : List Char} (hname : name? text = some (name, rest)) :
    rest <:+ text := by
  obtain ⟨-, -, -, rfl⟩ := name?_eq_some_iff.mp hname
  exact List.suffix_append name rest

theorem suffix_of_qualifier? {word : String} (hread : qualifier? word text = some rest) :
    rest <:+ text := by
  obtain ⟨behind, hafter, hblanks⟩ := Option.bind_eq_some_iff.mp hread
  exact (suffix_of_blanks? hblanks).trans (suffix_of_after? hafter)

theorem properTail_of_namedValue? {read : List Char × Option (List Char)}
    (hread : namedValue? text = some (read, rest)) : ProperTail rest text := by
  simp only [namedValue?, Option.bind_eq_bind, Option.bind_eq_some_iff, Option.pure_def,
    Option.some.injEq, Prod.mk.injEq] at hread
  obtain ⟨⟨name, behind⟩, hname, ⟨value, left⟩, hvalue, -, rfl⟩ := hread
  exact (properTail_of_initialValue? hvalue).of_suffix <|
    (List.dropWhile_suffix isBlank).trans (suffix_of_name? hname)

theorem properTail_of_typedValue? {read : List Char × List Char × Option (List Char)}
    (hread : typedValue? text = some (read, rest)) : ProperTail rest text := by
  simp only [typedValue?, Option.bind_eq_bind, Option.bind_eq_some_iff, Option.pure_def,
    Option.some.injEq, Prod.mk.injEq] at hread
  obtain ⟨⟨type, afterType⟩, htype, unspaced, hblanks, ⟨name, afterName⟩, hname, ⟨value, left⟩,
    hvalue, -, rfl⟩ := hread
  refine (properTail_of_initialValue? hvalue).of_suffix (List.IsSuffix.trans ?_ <|
    (suffix_of_name? hname).trans <| (suffix_of_blanks? hblanks).trans (suffix_of_name? htype))
  split
  · exact List.dropWhile_suffix isBlank
  · exact List.suffix_refl afterName

theorem suffix_of_storageVisibility? {visibility : Visibility}
    (hread : storageVisibility? text = some (visibility, rest)) : rest <:+ text :=
  storageVisibility?_eq_some hread ▸ List.suffix_append _ rest

theorem properTail_of_variableTail? {tail : VariableTail}
    (hread : variableTail? text = some (tail, rest)) : ProperTail rest text := by
  simp only [variableTail?, Option.bind_eq_bind, Option.bind_eq_some_iff, Option.orElse_eq_some,
    Option.pure_def, Option.some.injEq, Prod.mk.injEq] at hread
  obtain ⟨place, hblanks, ⟨visibility, behind⟩, hvisibility, after, hafter, hfinish⟩ := hread
  have hsuffix : after <:+ text := (suffix_of_blanks? hafter).trans <|
    (suffix_of_storageVisibility? hvisibility).trans (suffix_of_blanks? hblanks)
  rcases hfinish with ⟨more, hqualifier, ⟨named, left⟩, hnamed, -, rfl⟩ |
    ⟨-, ⟨more, hqualifier, ⟨named, left⟩, hnamed, -, rfl⟩ | ⟨-, ⟨named, left⟩, hnamed, -, rfl⟩⟩
  · exact (properTail_of_namedValue? hnamed).of_suffix
      ((suffix_of_qualifier? hqualifier).trans hsuffix)
  · exact (properTail_of_namedValue? hnamed).of_suffix
      ((suffix_of_qualifier? hqualifier).trans hsuffix)
  · exact (properTail_of_namedValue? hnamed).of_suffix hsuffix

theorem properTail_of_plainVariable? {tail : VariableTail} {type : List Char}
    (hread : plainVariable? text = some (tail, type, rest)) : ProperTail rest text := by
  simp only [plainVariable?, Option.bind_eq_bind, Option.bind_eq_some_iff] at hread
  obtain ⟨c, -, hread⟩ := hread
  split at hread
  · obtain ⟨⟨read, left⟩, htail, hpair⟩ := Option.bind_eq_some_iff.mp hread
    obtain ⟨-, hpair⟩ := Prod.mk.inj (Option.some.inj hpair)
    obtain ⟨-, rfl⟩ := Prod.mk.inj hpair
    exact (properTail_of_variableTail? htail).of_suffix
      ((afterAllBrackets_suffix _).trans (List.dropWhile_suffix _))
  · contradiction

theorem properTail_of_mappingTail? {tail : VariableTail} {behind : List Char}
    (hread : mappingTail? text = some (tail, behind, rest)) : ProperTail rest text := by
  induction text with
  | nil => contradiction
  | cons c more ih =>
      have hlater : mappingTail? more = some (tail, behind, rest) → ProperTail rest (c :: more) :=
        fun hmore => (ih hmore).of_suffix (List.suffix_cons c more)
      rw [mappingTail?] at hread
      split at hread
      · contradiction
      split at hread
      · split at hread
        next read left htail =>
          obtain ⟨-, hpair⟩ := Prod.mk.inj (Option.some.inj hread)
          obtain ⟨-, rfl⟩ := Prod.mk.inj hpair
          exact (properTail_of_variableTail? htail).of_suffix (List.suffix_cons c more)
        next => exact hlater hread
      · exact hlater hread

theorem properTail_of_mappingVariable? {tail : VariableTail} {type : List Char}
    (hread : mappingVariable? text = some (tail, type, rest)) : ProperTail rest text := by
  simp only [mappingVariable?, Option.bind_eq_bind, Option.bind_eq_some_iff, Option.pure_def,
    Option.some.injEq, Prod.mk.injEq] at hread
  obtain ⟨behind, hafter, inside, hopen, ⟨read, left⟩, htail, -, -, rfl⟩ := hread
  exact (properTail_of_mappingTail? htail).of_suffix <| (suffix_of_mark? hopen).trans <|
    (List.dropWhile_suffix _).trans (suffix_of_after? hafter)

theorem consumes_typeFirstShape : Consumes typeFirstShape := by
  intro before text parts rest hread
  rw [typeFirstShape] at hread
  split at hread
  · contradiction
  simp only [Option.bind_eq_bind, Option.bind_eq_some_iff, Option.orElse_eq_some,
    Option.pure_def, Option.some.injEq, Prod.mk.injEq] at hread
  obtain ⟨⟨tail, type, left⟩, htail, -, rfl⟩ := hread
  rcases htail with hmapping | ⟨-, hplain⟩
  · exact properTail_of_mappingVariable? hmapping
  · exact properTail_of_plainVariable? hplain

theorem consumes_visibilityFirstShape : Consumes visibilityFirstShape := by
  intro before text parts rest hread
  rw [visibilityFirstShape] at hread
  split at hread
  · contradiction
  simp only [Option.bind_eq_bind, Option.bind_eq_some_iff, Option.orElse_eq_some,
    Option.pure_def, Option.some.injEq, Prod.mk.injEq] at hread
  obtain ⟨⟨visibility, behind⟩, hvisibility, after, hafter, hfinish⟩ := hread
  have hsuffix : after <:+ text :=
    (suffix_of_blanks? hafter).trans (suffix_of_storageVisibility? hvisibility)
  rcases hfinish with ⟨more, hqualifier, ⟨typed, left⟩, htyped, -, rfl⟩ |
    ⟨-, ⟨typed, left⟩, htyped, -, rfl⟩
  · exact (properTail_of_typedValue? htyped).of_suffix
      ((suffix_of_qualifier? hqualifier).trans hsuffix)
  · exact (properTail_of_typedValue? htyped).of_suffix hsuffix

/-! ## Behind the word `function` -/

/-- A position that follows the word `function`, with nothing between them that ends a
statement. -/
def FollowsFunction (text : List Char) (position : Nat) : Prop :=
  ∃ front between, text.take position = front ++ ("function".toList ++ between) ∧
    (∀ c ∈ front.getLast?, isWord c = false) ∧ (∀ c ∈ between.head?, isWord c = false) ∧
    ∀ c ∈ between, endsStatement c = false

theorem functionWordShape_eq_some_iff {before : Option Char} {value : Unit} :
    functionWordShape before text = some (value, rest) ↔
      (∀ c ∈ before, isWord c = false) ∧ StopsAt isWord rest ∧
        text = "function".toList ++ rest := by
  simp only [functionWordShape, Option.bind_eq_bind, Option.bind_eq_some_iff]
  constructor
  · rintro ⟨behind, hkeyword, hfinish⟩
    obtain ⟨hbefore, rfl⟩ := keyword?_eq_some_iff.mp hkeyword
    split at hfinish
    · contradiction
    next hword =>
      obtain ⟨-, rfl⟩ := Prod.mk.inj (Option.some.inj hfinish)
      refine ⟨hbefore, fun c hc => ?_, rfl⟩
      rw [Option.mem_def.mp hc] at hword
      simpa using hword
  · rintro ⟨hbefore, hrest, rfl⟩
    refine ⟨rest, keyword?_eq_some_iff.mpr ⟨hbefore, rfl⟩, ?_⟩
    have hword : rest.head?.any isWord = false := by
      cases hhead : rest.head? with
      | none => rfl
      | some c => exact hrest c hhead
    rw [hword]
    rfl

theorem consumes_functionWordShape : Consumes functionWordShape := by
  intro before text value rest hread
  obtain ⟨-, -, htext⟩ := functionWordShape_eq_some_iff.mp hread
  exact ⟨"function".toList, by decide, htext⟩

theorem inFunctionHeader_of_followsFunction {position : Nat}
    (hfollows : FollowsFunction text position) : inFunctionHeader text position = true := by
  obtain ⟨front, between, htext, hbefore, hbehind, hbetween⟩ := hfollows
  -- The statement so far goes back over the word at least.
  obtain ⟨kept, hkept, hlast⟩ : ∃ kept : List Char,
      (((text.take position).reverse.takeWhile (!endsStatement ·)).reverse =
        kept ++ ("function".toList ++ between)) ∧ ∀ c ∈ kept.getLast?, isWord c = false := by
    have hword : ∀ c ∈ "function".toList, endsStatement c = false := by simp [endsStatement]
    have hrun : ∀ c ∈ ("function".toList ++ between).reverse, (!endsStatement c) = true := by
      intro c hc
      rcases List.mem_append.mp (List.mem_reverse.mp hc) with hc | hc
      · rw [hword c hc, Bool.not_false]
      · rw [hbetween c hc, Bool.not_false]
    refine ⟨(front.reverse.takeWhile (!endsStatement ·)).reverse, ?_, fun c hc => ?_⟩
    · rw [htext, List.reverse_append, List.takeWhile_append_of_pos hrun, List.reverse_append,
        List.reverse_reverse]
    · rw [List.getLast?_reverse, List.head?_takeWhile, List.head?_reverse] at hc
      exact hbefore c (Option.mem_filter_iff.mp hc).1
  have hreads : ReadsIn functionWordShape (kept ++ ("function".toList ++ between))
      ⟨kept.length, kept.length + "function".toList.length, ()⟩ :=
    ⟨kept, _, between, rfl, by decide,
      functionWordShape_eq_some_iff.mpr ⟨hlast, hbehind, rfl⟩, rfl, rfl⟩
  have hfound := consumes_functionWordShape.occurrences_ne_nil hreads
  simp only [inFunctionHeader, hkept]
  simpa using hfound

/-! ## Two scans in one order -/

/-- If no occurrence is empty and none of the first list overlaps one of the second, then to
merge two lists by their starts is to keep the occurrences apart. -/
theorem pairwise_precedes_merge {left right : List (Occurrence α)}
    (hleft : left.Pairwise Occurrence.Precedes) (hright : right.Pairwise Occurrence.Precedes)
    (hapart : ∀ found ∈ left, ∀ other ∈ right, other.overlaps found = false)
    (hnonempty : ∀ found ∈ left.merge right fun found other => found.start ≤ other.start,
      found.start < found.stop) :
    (left.merge right fun found other => found.start ≤ other.start).Pairwise
      Occurrence.Precedes := by
  have hperm : (left.merge right fun found other => found.start ≤ other.start).Perm
      (left ++ right) := List.merge_perm_append _
  have hsorted : (left.merge right fun found other => found.start ≤ other.start).Pairwise
      fun found other => decide (found.start ≤ other.start) = true :=
    List.pairwise_merge (by grind) (by grind) left right
      (hleft.imp fun hprecedes => decide_eq_true (Nat.le_of_lt hprecedes.1))
      (hright.imp fun hprecedes => decide_eq_true (Nat.le_of_lt hprecedes.1))
  have hdisjoint : (left ++ right).Pairwise fun found other =>
      found.stop ≤ other.start ∨ other.stop ≤ found.start := by
    refine List.pairwise_append.mpr ⟨hleft.imp fun hprecedes => .inl hprecedes.2,
      hright.imp fun hprecedes => .inl hprecedes.2, fun found hfound other hother => ?_⟩
    have hoverlaps := hapart found hfound other hother
    simp only [Occurrence.overlaps, Bool.and_eq_false_iff, decide_eq_false_iff_not] at hoverlaps
    omega
  refine (hsorted.and (hperm.symm.pairwise hdisjoint Or.symm)).imp_of_mem ?_
  rintro found other hfound hother ⟨hle, hor⟩
  have := of_decide_eq_true hle
  have := hnonempty found hfound
  have := hnonempty other hother
  constructor <;> omega

/-- Where no statement starts with a visibility, only the other scan counts. -/
theorem variableOccurrences_of_visibilityFirst_eq_nil
    (hnone : occurrences visibilityFirstShape text = []) :
    variableOccurrences text = (occurrences typeFirstShape text).filter fun found =>
      !inFunctionHeader text found.start := by
  rw [variableOccurrences, hnone]
  exact List.merge_right _

/-! ## The state variables of a text -/

/-- A statement of a state variable, in one of the two orders. -/
def IsVariableStatement (text : List Char) (found : Occurrence VariableParts) : Prop :=
  ReadsIn typeFirstShape text found ∨ ReadsIn visibilityFirstShape text found

theorem IsVariableStatement.start_lt_stop {found : Occurrence VariableParts}
    (hstatement : IsVariableStatement text found) : found.start < found.stop := by
  rcases hstatement with hreads | hreads <;> exact hreads.bounds.1

theorem isVariableStatement_of_mem {found : Occurrence VariableParts}
    (hfound : found ∈ variableOccurrences text) : IsVariableStatement text found := by
  rcases List.mem_merge.mp hfound with hfirst | hsecond
  · exact .inl (consumes_typeFirstShape.readsIn_of_mem (List.mem_of_mem_filter hfirst))
  · exact .inr (consumes_visibilityFirstShape.readsIn_of_mem (List.mem_of_mem_filter hsecond))

/-- Statements of state variables that share no character and come one behind the other,
none of them in the header of a function. -/
structure PlacedApart (text : List Char) (found : List (Occurrence VariableParts)) : Prop where
  statements : ∀ occurrence ∈ found, IsVariableStatement text occurrence
  apart : found.Pairwise Occurrence.Precedes
  outside : ∀ occurrence ∈ found, ¬ FollowsFunction text occurrence.start

theorem placedApart_variableOccurrences (text : List Char) :
    PlacedApart text (variableOccurrences text) where
  statements := fun _ => isVariableStatement_of_mem
  apart := by
    refine pairwise_precedes_merge ((pairwise_precedes_occurrences _ text).filter _)
      ((pairwise_precedes_occurrences _ text).filter _) (fun found hfound other hother => ?_)
      fun found hfound => (isVariableStatement_of_mem hfound).start_lt_stop
    obtain ⟨-, hkept⟩ := List.mem_filter.mp hother
    simp only [Bool.and_eq_true, Bool.not_eq_true', List.any_eq_false] at hkept
    simpa using hkept.1 found hfound
  outside := by
    intro found hfound hfollows
    have hheader := inFunctionHeader_of_followsFunction hfollows
    rcases List.mem_merge.mp hfound with hfirst | hsecond
    · simp [hheader] at hfirst
    · simp [hheader] at hsecond

/-- State variables are declared by statements that stand apart from one another and outside
the headers of functions, and are given in the order of the text. -/
theorem placedApart_stateVariables (text : List Char) :
    ∃ found, stateVariables text = found.map declaredVariable ∧ PlacedApart text found ∧
      (stateVariables text).Pairwise fun left right => left.offset < right.offset := by
  have hplaced := placedApart_variableOccurrences text
  refine ⟨variableOccurrences text, rfl, hplaced, ?_⟩
  rw [stateVariables, List.pairwise_map]
  exact hplaced.apart.imp fun hprecedes => hprecedes.1

end ContractAtlas.Source
