import Mathlib.Data.Finset.Card
import Mathlib.Data.List.Infix

/-!
# Listing each element once

Names are listed in the order in which they are seen first.  This file collects what
the theory of references needs of such lists: they hold the same elements, hold none
twice, grow at their end when the list grows at its end, and commute with maps that
tell their elements apart.
-/

namespace ContractAtlas.FirstSeen

variable {α β : Type} [BEq α] [LawfulBEq α] [BEq β] [LawfulBEq β]

omit [BEq α] [LawfulBEq α] in
theorem length_filter_lt (test : α → Bool) (head : α) (tail : List α) :
    (tail.filter test).length < (head :: tail).length := by
  have := List.length_filter_le test tail
  simp only [List.length_cons]
  omega

/-- `eraseDups` goes on with the elements that differ from the first one, which are
fewer, so the proofs about it recurse in the same way. -/
theorem nodup_eraseDups (list : List α) : list.eraseDups.Nodup := by
  cases list with
  | nil => simp
  | cons head tail =>
      rw [List.eraseDups_cons, List.nodup_cons]
      constructor
      · rw [List.mem_eraseDups]
        simp
      · exact nodup_eraseDups _
termination_by list.length
decreasing_by exact length_filter_lt _ _ _

theorem eraseDups_eq_self {list : List α} (hnodup : list.Nodup) :
    list.eraseDups = list := by
  induction list with
  | nil => simp
  | cons head tail ih =>
      obtain ⟨hhead, htail⟩ := List.nodup_cons.mp hnodup
      have hkeep : (tail.filter fun other => !other == head) = tail := by
        apply List.filter_eq_self.mpr
        intro other hother
        have hne : other ≠ head := fun heq => hhead (heq ▸ hother)
        simp [hne]
      rw [List.eraseDups_cons, hkeep, ih htail]

theorem eraseDups_concat [DecidableEq α] (list : List α) (last : α) :
    (list ++ [last]).eraseDups =
      if last ∈ list then list.eraseDups else list.eraseDups ++ [last] := by
  rw [List.eraseDups_append]
  by_cases hseen : last ∈ list
  · have hnone : [last].removeAll list = [] := by simp [List.removeAll, hseen]
    rw [if_pos hseen, hnone, List.eraseDups_nil, List.append_nil]
  · have hnew : [last].removeAll list = [last] := by simp [List.removeAll, hseen]
    rw [if_neg hseen, hnew, eraseDups_eq_self (List.nodup_singleton last)]

/-- A longer list lists the elements of its beginning first. -/
theorem prefix_eraseDups {short long : List α} (hbeginning : short <+: long) :
    short.eraseDups <+: long.eraseDups := by
  obtain ⟨rest, rfl⟩ := hbeginning
  rw [List.eraseDups_append]
  exact List.prefix_append _ _

/-- A map that is injective on a list does not change which elements are repeated. -/
theorem eraseDups_map (f : α → β) : ∀ (list : List α),
    (∀ left ∈ list, ∀ right ∈ list, f left = f right → left = right) →
      (list.map f).eraseDups = list.eraseDups.map f
  | [], _ => by simp
  | head :: tail, hinjective => by
      have hfilter : ((tail.map f).filter fun other => !other == f head) =
          (tail.filter fun other => !other == head).map f := by
        rw [List.filter_map]
        congr 1
        apply List.filter_congr
        intro other hother
        have hiff : f other = f head ↔ other = head :=
          ⟨hinjective other (by simp [hother]) head (by simp), fun heq => heq ▸ rfl⟩
        by_cases heq : other = head
        · simp [heq]
        · simp [heq, hiff]
      have hrest := eraseDups_map f (tail.filter fun other => !other == head) (by
        intro left hleft right hright
        exact hinjective left (List.mem_cons_of_mem _ (List.mem_of_mem_filter hleft))
          right (List.mem_cons_of_mem _ (List.mem_of_mem_filter hright)))
      rw [List.map_cons, List.eraseDups_cons, List.eraseDups_cons, List.map_cons, hfilter, hrest]
termination_by list => list.length
decreasing_by exact length_filter_lt _ _ _

theorem length_eraseDups [DecidableEq α] (list : List α) :
    list.eraseDups.length = list.toFinset.card := by
  rw [← List.toFinset_card_of_nodup (nodup_eraseDups list)]
  congr 1
  ext element
  rw [List.mem_toFinset, List.mem_toFinset, List.mem_eraseDups]

/-- If everything behind a rejected element is rejected as well, the accepted elements
are the beginning of the list. -/
theorem filter_prefix_self {γ : Type} {test : γ → Bool} {list : List γ}
    (hinitial : list.Pairwise fun left right => test right → test left) :
    list.filter test <+: list := by
  induction list with
  | nil => simp
  | cons head tail ih =>
      obtain ⟨hhead, htail⟩ := List.pairwise_cons.mp hinitial
      by_cases haccepted : test head
      · rw [List.filter_cons_of_pos haccepted]
        exact List.cons_prefix_cons.mpr ⟨rfl, ih htail⟩
      · have hnone : (head :: tail).filter test = [] := by
          apply List.filter_eq_nil_iff.mpr
          intro element helement htest
          rcases List.mem_cons.mp helement with rfl | hmem
          · exact haccepted htest
          · exact haccepted (hhead element hmem htest)
        rw [hnone]
        exact List.nil_prefix

/-- The same for the elements that a weaker test accepts. -/
theorem filter_prefix_filter {γ : Type} {strong weak : γ → Bool} {list : List γ}
    (hinitial : list.Pairwise fun left right => strong right → strong left)
    (hweaker : ∀ element ∈ list, strong element → weak element) :
    list.filter strong <+: list.filter weak := by
  have hboth : (list.filter weak).filter strong = list.filter strong := by
    rw [List.filter_filter]
    apply List.filter_congr
    intro element helement
    have himplies := hweaker element helement
    cases hstrong : strong element with
    | false => rfl
    | true => simpa using himplies hstrong
  rw [← hboth]
  exact filter_prefix_self (hinitial.filter weak)

/-- The places of a list are numbered without repetition, whichever of them are kept. -/
theorem nodup_map_place {γ δ : Type} {list : List γ} {kept : List (γ × Nat)} {f : Nat → δ}
    (hkept : kept.Sublist list.zipIdx) (hinjective : Function.Injective f) :
    (kept.map fun entry => f entry.2).Nodup := by
  have hall : (list.zipIdx.map Prod.snd).Nodup := by
    rw [List.zipIdx_map_snd]
    exact List.nodup_range'
  have hplaces := List.Nodup.map hinjective (hall.sublist (hkept.map _))
  rwa [List.map_map] at hplaces

/-- Rows without repetition hold nothing in common if their elements tell the place of
the row. -/
theorem nodup_flatMap_of_place {γ δ : Type} {list : List γ} {kept : List (γ × Nat)}
    {row : γ × Nat → List δ} (placeOf : δ → Option Nat) (hkept : kept.Sublist list.zipIdx)
    (hrows : ∀ entry ∈ kept, (row entry).Nodup)
    (hplace : ∀ entry ∈ kept, ∀ element ∈ row entry, placeOf element = some entry.2) :
    (kept.flatMap row).Nodup := by
  rw [List.nodup_flatMap]
  refine ⟨hrows, ?_⟩
  have hplaces := List.pairwise_map.mp (nodup_map_place hkept Function.injective_id)
  apply hplaces.imp_of_mem
  intro left right hleft hright hne element hinLeft hinRight
  apply hne
  have hsame := hplace right hright element hinRight
  rw [hplace left hleft element hinLeft] at hsame
  exact Option.some.inj hsame

end ContractAtlas.FirstSeen
