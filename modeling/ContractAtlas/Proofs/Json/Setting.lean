import ContractAtlas.Json.Basic
import ContractAtlas.Proofs.FirstSeen
import Mathlib.Data.List.Induction

/-!
# Fields that are set one after the other

Setting a field replaces its value if the name is known, and adds the field behind all others
if it is not.  So when many fields have been set, each name stands once, in the order in which
the names were set first, and has the value that was set last (`names_lastSet` and
`lookup_lastSet`).  The names alone decide what is replaced: setting only some of them gives
the same fields as dropping the others afterwards (`filter_lastSet`).
-/

namespace ContractAtlas.Json

variable {κ : Type} [DecidableEq κ] {name other : κ} {value : Json} {field : κ × Json}
  {fields settings : List (κ × Json)}

theorem mem_setField (hfield : field ∈ setField name value fields) :
    field = (name, value) ∨ field ∈ fields := by
  induction fields with
  | nil => exact .inl (List.mem_singleton.mp hfield)
  | cons entry rest ih =>
      rw [setField] at hfield
      split at hfield
      next hknown =>
        rcases List.mem_cons.mp hfield with rfl | hfield
        · exact .inl (by rw [hknown])
        · exact .inr (List.mem_cons_of_mem _ hfield)
      next =>
        rcases List.mem_cons.mp hfield with rfl | hfield
        · exact .inr List.mem_cons_self
        · exact (ih hfield).imp_right (List.mem_cons_of_mem _)

theorem map_fst_setField (name : κ) (value : Json) (fields : List (κ × Json)) :
    (setField name value fields).map (·.1) =
      if name ∈ fields.map (·.1) then fields.map (·.1) else fields.map (·.1) ++ [name] := by
  induction fields with
  | nil => rfl
  | cons entry rest ih =>
      rw [setField]
      by_cases hknown : entry.1 = name
      · simp [hknown]
      · have hne : ¬ name = entry.1 := fun heq => hknown heq.symm
        simp only [hknown, if_false, List.map_cons, ih, List.mem_cons, hne, false_or]
        split <;> rfl

theorem lookup_cons_eq_ite (other : κ) (entry : κ × Json) (rest : List (κ × Json)) :
    (entry :: rest).lookup other = if other = entry.1 then some entry.2 else rest.lookup other := by
  rw [List.lookup_cons]
  split
  next hsame => rw [if_pos (eq_of_beq hsame)]
  next hother => rw [if_neg (ne_of_beq_false hother)]

theorem lookup_setField (other name : κ) (value : Json) (fields : List (κ × Json)) :
    (setField name value fields).lookup other =
      if other = name then some value else fields.lookup other := by
  induction fields with
  | nil => rw [setField, lookup_cons_eq_ite]
  | cons entry rest ih =>
      rw [setField]
      by_cases hknown : entry.1 = name
      · rw [if_pos hknown, lookup_cons_eq_ite, lookup_cons_eq_ite, hknown]
        split <;> rfl
      · rw [if_neg hknown, lookup_cons_eq_ite, lookup_cons_eq_ite, ih]
        by_cases heq : other = entry.1
        · rw [if_pos heq, if_neg (heq ▸ hknown), if_pos heq]
        · rw [if_neg heq, if_neg heq]

theorem filter_setField (keep : κ → Bool) (name : κ) (value : Json) (fields : List (κ × Json)) :
    (setField name value fields).filter (fun field => keep field.1) =
      if keep name then setField name value (fields.filter fun field => keep field.1)
      else fields.filter fun field => keep field.1 := by
  induction fields with
  | nil => by_cases hkeep : keep name <;> simp [setField, hkeep]
  | cons entry rest ih =>
      obtain ⟨known, old⟩ := entry
      rw [setField]
      by_cases hknown : known = name
      · subst hknown
        by_cases hkeep : keep known <;> simp [hkeep, setField]
      · rw [if_neg hknown, List.filter_cons, ih, List.filter_cons]
        by_cases hentry : keep known <;> by_cases hkeep : keep name <;>
          simp [hentry, hkeep, setField, hknown]

/-- A name that is unknown at first is set behind what is there. -/
theorem setField_append (hnew : ∀ entry ∈ fields, entry.1 ≠ name) (value : Json)
    (more : List (κ × Json)) :
    setField name value (fields ++ more) = fields ++ setField name value more := by
  induction fields with
  | nil => rfl
  | cons entry rest ih =>
      obtain ⟨hentry, hrest⟩ := List.forall_mem_cons.mp hnew
      rw [List.cons_append, setField, if_neg hentry, ih hrest, List.cons_append]

/-! ## Many fields -/

/-- The fields after some have been set, none being there before. -/
def lastSet (settings : List (κ × Json)) : List (κ × Json) :=
  settings.foldl (fun known (name, value) => setField name value known) []

theorem lastSet_concat (settings : List (κ × Json)) (field : κ × Json) :
    lastSet (settings ++ [field]) = setField field.1 field.2 (lastSet settings) := by
  rw [lastSet, List.foldl_append]
  rfl

theorem mem_of_mem_lastSet (hfield : field ∈ lastSet settings) : field ∈ settings := by
  induction settings using List.reverseRecOn with
  | nil => exact hfield
  | append_singleton settings last ih =>
      rw [lastSet_concat] at hfield
      rcases mem_setField hfield with rfl | hfield
      · exact List.mem_append_right _ (List.mem_singleton_self _)
      · exact List.mem_append_left _ (ih hfield)

theorem names_lastSet (settings : List (κ × Json)) :
    (lastSet settings).map (·.1) = (settings.map (·.1)).eraseDups := by
  induction settings using List.reverseRecOn with
  | nil => rfl
  | append_singleton settings last ih =>
      rw [lastSet_concat, map_fst_setField, ih, List.map_append, List.map_singleton,
        FirstSeen.eraseDups_concat]
      simp only [List.mem_eraseDups]

theorem nodup_names_lastSet (settings : List (κ × Json)) :
    ((lastSet settings).map (·.1)).Nodup := by
  rw [names_lastSet]
  exact FirstSeen.nodup_eraseDups _

theorem lookup_lastSet (settings : List (κ × Json)) (name : κ) :
    (lastSet settings).lookup name = settings.reverse.lookup name := by
  induction settings using List.reverseRecOn with
  | nil => rfl
  | append_singleton settings last ih =>
      rw [lastSet_concat, lookup_setField, ih, List.reverse_append, List.reverse_singleton,
        List.singleton_append, lookup_cons_eq_ite]

theorem filter_lastSet (keep : κ → Bool) (settings : List (κ × Json)) :
    (lastSet settings).filter (fun field => keep field.1) =
      lastSet (settings.filter fun field => keep field.1) := by
  induction settings using List.reverseRecOn with
  | nil => rfl
  | append_singleton settings last ih =>
      rw [lastSet_concat, filter_setField, ih, List.filter_append, List.filter_singleton]
      cases keep last.1 with
      | true => exact (lastSet_concat _ _).symm
      | false => simp

/-- If no name is repeated, all fields stay as they were set. -/
theorem lastSet_eq_self (hdistinct : (settings.map (·.1)).Nodup) : lastSet settings = settings := by
  induction settings using List.reverseRecOn with
  | nil => rfl
  | append_singleton settings last ih =>
      rw [List.map_append, List.nodup_append] at hdistinct
      obtain ⟨hsettings, -, hlast⟩ := hdistinct
      have hnew : ∀ entry ∈ settings, entry.1 ≠ last.1 := fun entry hentry =>
        hlast entry.1 (List.mem_map_of_mem hentry) last.1 (by simp)
      rw [lastSet_concat, ih hsettings, setField_of_notMem hnew]

theorem ofFields_eq_lastSet (fields : List (Text × Json)) :
    ofFields fields = .obj (lastSet fields) := rfl

end ContractAtlas.Json
