import ContractAtlas.Proofs.Interface.Acceptance
import ContractAtlas.Proofs.Json.Strings

/-!
# Flags and stated mutability

Old interface lists say with a flag what newer ones state as a mutability.  An entry with a
flag and the entry that states the same in its place declare the same function, at the same
position, but each keeps its own text (`Restates.exists_split`).

A word that stands neither in the flag nor in what takes its place stands in both texts or in
neither, if it cannot reach across the border of a string (`Restates.infix_compact_iff`).
-/

namespace ContractAtlas

open Json

namespace Interface

open Schema

/-! ## Entries with a flag and entries without -/

/-- The flags of old lists. -/
inductive Flag where
  | constant
  | payable

namespace Flag

def name : Flag → String
  | .constant => "constant"
  | .payable => "payable"

/-- The mutability that a flag stands for. -/
def stated : Flag → Mutability
  | .constant => .view
  | .payable => .payable

/-- Whether no other flag of an entry counts more. -/
def Counts : Flag → Json → Prop
  | .constant, entry => FieldIs "payable" (· = .bool false) entry
  | .payable, _ => True

end Flag

/-- A word that stands neither in a flag nor in what takes its place, and that stands in the
text of a value only if it stands in one of its strings. -/
structure Flag.Unaffected (flag : Flag) (word : List Char) : Prop where
  loud : IsLoud word
  name : Lacks word (Text.ofString flag.name)
  key : Lacks word (Text.ofString "stateMutability")
  stated : Lacks word (Text.ofString flag.stated.keyword)

instance (flag : Flag) (word : List Char) : Decidable (flag.Unaffected word) :=
  decidable_of_iff (IsLoud word ∧ Lacks word (Text.ofString flag.name) ∧
      Lacks word (Text.ofString "stateMutability") ∧
      Lacks word (Text.ofString flag.stated.keyword))
    ⟨fun ⟨loud, name, key, stated⟩ => ⟨loud, name, key, stated⟩,
      fun ⟨loud, name, key, stated⟩ => ⟨loud, name, key, stated⟩⟩

/-- Fields with one more somewhere among them. -/
def Inserts (field : Text × Json) (others fields : List (Text × Json)) : Prop :=
  ∃ before after, others = before ++ after ∧ fields = before ++ field :: after

/-- An accepted entry whose mutability is given by a flag, and the entry that states this
mutability in place of the flag. -/
structure Restates (flag : Flag) (old new : Json) : Prop where
  accepted : IsFunction old
  counts : flag.Counts old
  fields : ∃ others oldFields newFields,
    (∀ field ∈ others, field.1 ≠ Text.ofString flag.name ∧
      field.1 ≠ Text.ofString "stateMutability") ∧
    Inserts (Text.ofString flag.name, .bool true) others oldFields ∧
    Inserts (Text.ofString "stateMutability", .ofString flag.stated.keyword) others newFields ∧
    old = .obj oldFields ∧ new = .obj newFields

section Fields

variable {name key : String} {value : Json} {others fields : List (Text × Json)}

theorem Inserts.field?_ne (hinserts : Inserts (Text.ofString key, value) others fields)
    (hne : name ≠ key) : (Json.obj fields).field? name = (Json.obj others).field? name := by
  obtain ⟨before, after, rfl, rfl⟩ := hinserts
  have hkey : Text.ofString key ≠ Text.ofString name := fun heq =>
    hne (Text.ofString_injective heq).symm
  simp [field?, hkey]

theorem Inserts.field?_self (hinserts : Inserts (Text.ofString key, value) others fields)
    (hothers : ∀ field ∈ others, field.1 ≠ Text.ofString key) :
    (Json.obj fields).field? key = some value := by
  obtain ⟨before, after, rfl, rfl⟩ := hinserts
  have hbefore : before.find? (fun field => field.1 == Text.ofString key) = none := by
    rw [List.find?_eq_none]
    intro field hfield
    simpa using hothers field (List.mem_append_left after hfield)
  simp [field?, hbefore]

theorem field?_obj_eq_none (hothers : ∀ field ∈ others, field.1 ≠ Text.ofString name) :
    (Json.obj others).field? name = none := by
  rw [field?, Option.map_eq_none_iff, List.find?_eq_none]
  intro field hfield
  simpa using hothers field hfield

/-- What is inserted stands in the text besides what was there before. -/
theorem Inserts.infix_compact_iff {word : List Char} (hword : IsLoud word)
    {field : Text × Json} (hinserts : Inserts field others fields) :
    Text.ofChars word <:+: (Json.obj fields).compact ↔
      (¬ Lacks word field.1 ∨ Text.ofChars word <:+: field.2.compact) ∨
        Text.ofChars word <:+: (Json.obj others).compact := by
  obtain ⟨before, after, rfl, rfl⟩ := hinserts
  simp only [infix_compact_obj_iff hword, List.mem_append, List.mem_cons]
  constructor
  · rintro ⟨other, hother | rfl | hother, hinside⟩
    · exact .inr ⟨other, .inl hother, hinside⟩
    · exact .inl hinside
    · exact .inr ⟨other, .inr hother, hinside⟩
  · rintro (hinside | ⟨other, hother | hother, hinside⟩)
    · exact ⟨field, .inr (.inl rfl), hinside⟩
    · exact ⟨other, .inl hother, hinside⟩
    · exact ⟨other, .inr (.inr hother), hinside⟩

end Fields

section Optional

variable {α : Type} {absent : α} {decoder : Decoder α} {name : String} {entry : Json}

theorem optional_of_none (hfield : entry.field? name = none) :
    Schema.optional name absent decoder entry = .valid absent := by
  rw [Schema.optional, hfield]

theorem optional_flag_of_bool {value : Bool} (hfield : entry.field? name = some (.bool value)) :
    Schema.optional name none (nullable flag) entry = .valid (some value) := by
  rw [Schema.optional, hfield]
  rfl

theorem optional_flag_of_null (hfield : entry.field? name = some .null) :
    Schema.optional name none (nullable flag) entry = .valid none := by
  rw [Schema.optional, hfield]
  rfl

end Optional

namespace Restates

variable {flag : Flag} {old new : Json} (hrestates : Restates flag old new)

include hrestates

theorem field?_eq {name : String} (hflag : name ≠ flag.name) (hstated : name ≠ "stateMutability") :
    new.field? name = old.field? name := by
  obtain ⟨others, oldFields, newFields, -, hold, hnew, rfl, rfl⟩ := hrestates.fields
  rw [hnew.field?_ne hstated, hold.field?_ne hflag]

theorem field?_old_flag : old.field? flag.name = some (.bool true) := by
  obtain ⟨others, oldFields, newFields, hothers, hold, -, rfl, rfl⟩ := hrestates.fields
  exact hold.field?_self fun field hfield => (hothers field hfield).1

theorem field?_old_stated : old.field? "stateMutability" = none := by
  obtain ⟨others, oldFields, newFields, hothers, hold, -, rfl, rfl⟩ := hrestates.fields
  rw [hold.field?_ne (by cases flag <;> decide)]
  exact field?_obj_eq_none fun field hfield => (hothers field hfield).2

theorem field?_new_flag : new.field? flag.name = none := by
  obtain ⟨others, oldFields, newFields, hothers, -, hnew, rfl, rfl⟩ := hrestates.fields
  rw [hnew.field?_ne (by cases flag <;> decide)]
  exact field?_obj_eq_none fun field hfield => (hothers field hfield).1

theorem field?_new_stated :
    new.field? "stateMutability" = some (.ofString flag.stated.keyword) := by
  obtain ⟨others, oldFields, newFields, hothers, -, hnew, rfl, rfl⟩ := hrestates.fields
  exact hnew.field?_self fun field hfield => (hothers field hfield).2

/-! ## The declarations of both -/

theorem keyword?_old :
    entryKeyword? "stateMutability" Mutability.ofKeyword? old = none := by
  rw [entryKeyword?, hrestates.field?_old_stated]
  rfl

theorem keyword?_new :
    entryKeyword? "stateMutability" Mutability.ofKeyword? new = some flag.stated := by
  rw [entryKeyword?, hrestates.field?_new_stated]
  simp [string?_eq_some_iff.mpr rfl]

theorem optional_eq {α : Type} {absent : α} {decoder : Decoder α} {name : String}
    (hflag : name ≠ flag.name) (hstated : name ≠ "stateMutability") :
    Schema.optional name absent decoder new = Schema.optional name absent decoder old := by
  rw [Schema.optional, Schema.optional, hrestates.field?_eq hflag hstated]

/-- The flags of an old entry come to the mutability that the new one states. -/
theorem entryMutability_eq {constant payable : Option Bool}
    (hconstant : Schema.optional "constant" none (nullable Schema.flag) old = .valid constant)
    (hpayable : Schema.optional "payable" none (nullable Schema.flag) old = .valid payable) :
    entryMutability none constant payable = flag.stated := by
  have hset := hrestates.field?_old_flag
  have hcounts := hrestates.counts
  cases flag with
  | constant =>
      obtain rfl := Checked.valid.inj (hconstant.symm.trans (optional_flag_of_bool hset))
      have hnot : payable ≠ some true := by
        cases hfield : old.field? "payable" with
        | none =>
            rw [optional_of_none hfield] at hpayable
            simp [← Checked.valid.inj hpayable]
        | some value =>
            rcases hcounts value hfield with rfl | rfl
            · rw [optional_flag_of_null hfield] at hpayable
              simp [← Checked.valid.inj hpayable]
            · rw [optional_flag_of_bool hfield] at hpayable
              simp [← Checked.valid.inj hpayable]
      rw [entryMutability, Option.getD_none, if_neg hnot, if_pos rfl]
      rfl
  | payable =>
      obtain rfl := Checked.valid.inj (hpayable.symm.trans (optional_flag_of_bool hset))
      rw [entryMutability, Option.getD_none, if_pos rfl]
      rfl

theorem exists_optional_new {name : String} {found : Option Bool}
    (hname : name ≠ "stateMutability")
    (hold : Schema.optional name none (nullable Schema.flag) old = .valid found) :
    ∃ found, Schema.optional name none (nullable Schema.flag) new = .valid found := by
  by_cases hflag : name = flag.name
  · subst hflag
    exact ⟨none, optional_of_none hrestates.field?_new_flag⟩
  · exact ⟨found, by rw [hrestates.optional_eq hflag hname, hold]⟩

/-- Both entries declare the same function, but each keeps its own text. -/
theorem exists_function? (position : Nat) :
    ∃ declaration, (outcome position old).function? = some declaration ∧
      declaration.entry = some old.compact ∧
      (outcome position new).function? = some { declaration with entry := some new.compact } := by
  obtain ⟨declaration, hdeclaration⟩ :=
    Option.isSome_iff_exists.mp (isSome_function?_iff.mpr hrestates.accepted)
  obtain ⟨htype, hentry⟩ := function?_outcome_eq_some_iff.mp hdeclaration
  obtain ⟨name, inputs, outputs, constant, payable, hname, hinputs, houtputs, hconstant, hpayable,
    rfl⟩ := functionEntry_eq_valid_iff.mp hentry
  have hfield : ∀ name, name ∉ ["constant", "payable", "stateMutability"] →
      new.field? name = old.field? name := by
    intro name hname
    simp only [List.mem_cons, List.not_mem_nil, or_false, not_or] at hname
    refine hrestates.field?_eq ?_ hname.2.2
    cases flag with
    | constant => exact hname.1
    | payable => exact hname.2.1
  have hvisibility : entryKeyword? "visibility" Visibility.ofKeyword? new =
      entryKeyword? "visibility" Visibility.ofKeyword? old := by
    rw [entryKeyword?, entryKeyword?, hfield "visibility" (by decide)]
  obtain ⟨newConstant, hnewConstant⟩ := hrestates.exists_optional_new (by decide) hconstant
  obtain ⟨newPayable, hnewPayable⟩ := hrestates.exists_optional_new (by decide) hpayable
  refine ⟨_, hdeclaration, rfl, function?_outcome_eq_some_iff.mpr ⟨?_,
    functionEntry_eq_valid_iff.mpr ⟨name, inputs, outputs, newConstant, newPayable, ?_, ?_, ?_,
      hnewConstant, hnewPayable, ?_⟩⟩⟩
  · rw [hfield _ (by decide), htype]
  · rw [required, hfield _ (by decide)]
    exact hname
  · rw [entryParameters, Schema.optional, hfield _ (by decide)]
    exact hinputs
  · rw [entryParameters, Schema.optional, hfield _ (by decide)]
    exact houtputs
  · rw [hrestates.keyword?_old, hrestates.entryMutability_eq hconstant hpayable,
      hrestates.keyword?_new, hvisibility]
    rfl

/-- Neither entry declares an event. -/
theorem event?_eq_none (position : Nat) :
    (outcome position old).event? = none ∧ (outcome position new).event? = none := by
  have htype : ∀ {entry}, (entry.field? "type") = some (.ofString "function") →
      (outcome position entry).event? = none := by
    intro entry hfunction
    rw [← Option.not_isSome_iff_eq_none, isSome_event?_iff]
    intro hevent
    have htypes := Option.some.inj (hfunction.symm.trans hevent.type)
    simp [ofString, Text.ofString, Text.ofChars] at htypes
  have hold := hrestates.accepted.type
  have hnew : new.field? "type" = some (.ofString "function") :=
    (hrestates.field?_eq (by cases flag <;> decide) (by decide)).trans hold
  exact ⟨htype hold, htype hnew⟩

/-- Lists around the two entries declare the same functions around the two, and the same
events. -/
theorem exists_split (before after : List Json) :
    ∃ declaration back, declaration.entry = some old.compact ∧
      (∀ function ∈ functions before ++ back, function.entry.isSome = true) ∧
      functions (before ++ old :: after) = functions before ++ declaration :: back ∧
      functions (before ++ new :: after) =
        functions before ++ { declaration with entry := some new.compact } :: back ∧
      events (before ++ new :: after) = events (before ++ old :: after) := by
  obtain ⟨declaration, hold, hentry, hnew⟩ := hrestates.exists_function? before.length
  obtain ⟨holdEvent, hnewEvent⟩ := hrestates.event?_eq_none before.length
  let back := (after.zipIdx (before.length + 1)).filterMap fun entry =>
    (outcome entry.2 entry.1).function?
  refine ⟨declaration, back, hentry, ?_, ?_, ?_, ?_⟩
  · intro function hfunction
    have hmem : function ∈ functions (before ++ old :: after) := by
      simp only [functions_eq_filterMap, List.zipIdx_append, List.zipIdx_cons,
        List.filterMap_append, List.filterMap_cons, Nat.zero_add, hold, List.mem_append,
        List.mem_cons, back] at hfunction ⊢
      exact hfunction.imp_right .inr
    exact isSome_entry_of_mem_functions hmem
  · simp only [functions_eq_filterMap, List.zipIdx_append, List.zipIdx_cons,
      List.filterMap_append, List.filterMap_cons, Nat.zero_add, hold, back]
  · simp only [functions_eq_filterMap, List.zipIdx_append, List.zipIdx_cons,
      List.filterMap_append, List.filterMap_cons, Nat.zero_add, hnew, back]
  · simp only [events_eq_filterMap, List.zipIdx_append, List.zipIdx_cons,
      List.filterMap_append, List.filterMap_cons, Nat.zero_add, holdEvent, hnewEvent]

/-! ## The texts of both -/

theorem infix_compact_iff {word : List Char} (hword : flag.Unaffected word) :
    Text.ofChars word <:+: old.compact ↔ Text.ofChars word <:+: new.compact := by
  obtain ⟨others, oldFields, newFields, -, hold, hnew, rfl, rfl⟩ := hrestates.fields
  rw [hold.infix_compact_iff hword.loud, hnew.infix_compact_iff hword.loud]
  simp only [ofString, not_infix_compact_bool hword.loud, infix_compact_str_iff hword.loud,
    hword.name, hword.key, hword.stated, not_true, or_self, false_or]

/-- The text of a list mentions what those of its entries mention. -/
theorem infix_compact_arr_iff {word : List Char} (hword : flag.Unaffected word)
    (before after : List Json) :
    Text.ofChars word <:+: (Json.arr (before ++ old :: after)).compact ↔
      Text.ofChars word <:+: (Json.arr (before ++ new :: after)).compact := by
  simp only [Json.infix_compact_arr_iff hword.loud, List.mem_append, List.mem_cons, or_and_right,
    exists_or, exists_eq_left, hrestates.infix_compact_iff hword]

/-- What an entry states stands in its text. -/
theorem infix_stated (hloud : IsLoud flag.stated.keyword.toList) :
    Text.ofString flag.stated.keyword <:+: new.compact := by
  obtain ⟨others, oldFields, newFields, -, -, hnew, rfl, rfl⟩ := hrestates.fields
  refine (hnew.infix_compact_iff hloud).mpr (.inl (.inr ?_))
  rw [ofString, infix_compact_str_iff hloud, Lacks, not_not]
  cases flag <;> decide

end Restates

end Interface

end ContractAtlas
