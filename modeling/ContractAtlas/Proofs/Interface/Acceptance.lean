import ContractAtlas.Proofs.Extraction
import ContractAtlas.Proofs.Interface.Entry
import ContractAtlas.Proofs.Json.Writable
import ContractAtlas.Proofs.Schema.Acceptance
import ContractAtlas.Proofs.Source.Shift

/-!
# Which entries of an interface list are accepted

An entry declares a function or an event if it has the type and a name, and if nothing is
wrong with the fields that are read of it: a field that is absent or null is never wrong, and
a field that is not read never matters.  Here this is said of the entry itself, without a
decoder (`IsFunction`, `IsEvent`), and the decoders accept exactly these entries.

Every entry is judged for itself, and keeps its position whatever becomes of the others.  So a
list declares its accepted entries in their order, and two lists in a row declare what each
of them declares, the second moved by the length of the first
(`Extraction.followsEntries`).

Malformed entries are passed over, but a list is written before it is extracted, and an integer
of an entry may be too long for that.  No text holds such a list.
-/

namespace ContractAtlas

namespace Interface

open Schema

/-! ## Entries that declare something -/

/-- A parameter in a list of parameters. -/
structure IsParameter (value : Json) : Prop where
  object : ∃ fields, value = .obj fields
  name : FieldIs "name" IsText value
  type : FieldIs "type" IsText value
  indexed : FieldIs "indexed" BooleanLike value

def IsParameterList (value : Json) : Prop :=
  ∃ items, value = .arr items ∧ ∀ item ∈ items, IsParameter item

/-- What functions and events have in common.  A name is made of characters, and of one at
least. -/
structure IsDeclaration (type : String) (entry : Json) : Prop where
  type : entry.field? "type" = some (.ofString type)
  name : ∃ name, name ≠ "" ∧ entry.field? "name" = some (.ofString name)
  inputs : FieldIs "inputs" IsParameterList entry

structure IsFunction (entry : Json) : Prop extends IsDeclaration "function" entry where
  outputs : FieldIs "outputs" IsParameterList entry
  constant : FieldIs "constant" BooleanLike entry
  payable : FieldIs "payable" BooleanLike entry

structure IsEvent (entry : Json) : Prop extends IsDeclaration "event" entry where
  isAnonymous : FieldIs "anonymous" BooleanLike entry

/-! ## What the decoders accept -/

theorem isValid_entryParameter_iff {value : Json} :
    (entryParameter value).IsValid ↔ IsParameter value := by
  simp only [entryParameter, isValid_object_iff, Checked.isValid_seq_iff,
    Checked.isValid_map_iff, isValid_optional_nullable_iff isValid_text_iff,
    isValid_optional_nullable_iff isValid_flag_iff]
  constructor
  · rintro ⟨hobject, ⟨hname, htype⟩, hindexed⟩
    exact ⟨hobject, hname, htype, hindexed⟩
  · rintro ⟨hobject, hname, htype, hindexed⟩
    exact ⟨hobject, ⟨hname, htype⟩, hindexed⟩

theorem isValid_entryParameters_iff {name : String} {entry : Json} :
    (entryParameters name entry).IsValid ↔ FieldIs name IsParameterList entry := by
  have hkind : ∀ {value}, (arrayOf .notList entryParameter value).IsValid ↔
      IsParameterList value := by
    simp only [isValid_arrayOf_iff, isValid_entryParameter_iff, IsParameterList, implies_true]
  rw [entryParameters, Checked.isValid_map_iff, isValid_optional_nullable_iff hkind]

theorem entryName_eq_valid_iff {value : Json} {name : String} :
    entryName value = .valid name ↔ name ≠ "" ∧ value = .ofString name := by
  cases value with
  | str text =>
      have hstr : Json.str text = .ofString name ↔ text.string? = some name := by
        rw [Text.string?_eq_some_iff, Json.ofString, Json.str.injEq]
      rw [hstr, entryName]
      split
      next hnone => simp [hnone, Checked.fault]
      next hempty => simp +contextual [hempty, Checked.fault, eq_comm]
      next found hne hfound =>
        have hfull : found ≠ "" := hne
        simp only [hfound, Checked.valid.injEq, Option.some.injEq]
        constructor
        · rintro rfl
          exact ⟨hfull, rfl⟩
        · exact And.right
  | _ => simp [entryName, Checked.fault, Json.ofString]

theorem required_entryName_eq_valid_iff {entry : Json} {name : String} :
    required "name" entryName entry = .valid name ↔
      name ≠ "" ∧ entry.field? "name" = some (.ofString name) := by
  simp only [required_eq_valid_iff, entryName_eq_valid_iff]
  constructor
  · rintro ⟨_, hfield, hne, rfl⟩
    exact ⟨hne, hfield⟩
  · rintro ⟨hne, hfield⟩
    exact ⟨_, hfield, hne, rfl⟩

theorem string?_type_eq_some_iff {type : String} {entry : Json} :
    (entry.field? "type" >>= Json.string?) = some type ↔
      entry.field? "type" = some (.ofString type) := by
  simp [Option.bind_eq_some_iff, Json.string?_eq_some_iff]

theorem isValid_required_entryName_iff {entry : Json} :
    (required "name" entryName entry).IsValid ↔
      ∃ name, name ≠ "" ∧ entry.field? "name" = some (.ofString name) :=
  exists_congr fun _ => required_entryName_eq_valid_iff

theorem isSome_function?_iff {position : Nat} {entry : Json} :
    (outcome position entry).function?.isSome = true ↔ IsFunction entry := by
  have hvalid : (outcome position entry).function?.isSome = true ↔
      entry.field? "type" = some (.ofString "function") ∧
        (functionEntry position entry).IsValid := by
    simp only [Option.isSome_iff_exists, function?_outcome_eq_some_iff, exists_and_left,
      string?_type_eq_some_iff, Checked.IsValid]
  simp only [hvalid, functionEntry, Checked.isValid_seq_iff, Checked.isValid_map_iff,
    isValid_required_entryName_iff, isValid_entryParameters_iff,
    isValid_optional_nullable_iff isValid_flag_iff]
  constructor
  · rintro ⟨htype, ⟨⟨⟨hname, hinputs⟩, houtputs⟩, hconstant⟩, hpayable⟩
    exact ⟨⟨htype, hname, hinputs⟩, houtputs, hconstant, hpayable⟩
  · rintro ⟨⟨htype, hname, hinputs⟩, houtputs, hconstant, hpayable⟩
    exact ⟨htype, ⟨⟨⟨hname, hinputs⟩, houtputs⟩, hconstant⟩, hpayable⟩

theorem isSome_event?_iff {position : Nat} {entry : Json} :
    (outcome position entry).event?.isSome = true ↔ IsEvent entry := by
  have hvalid : (outcome position entry).event?.isSome = true ↔
      entry.field? "type" = some (.ofString "event") ∧ (eventEntry position entry).IsValid := by
    simp only [Option.isSome_iff_exists, event?_outcome_eq_some_iff, exists_and_left,
      string?_type_eq_some_iff, Checked.IsValid]
  simp only [hvalid, eventEntry, Checked.isValid_seq_iff, Checked.isValid_map_iff,
    isValid_required_entryName_iff, isValid_entryParameters_iff,
    isValid_optional_nullable_iff isValid_flag_iff]
  constructor
  · rintro ⟨htype, ⟨hname, hinputs⟩, hanonymous⟩
    exact ⟨⟨htype, hname, hinputs⟩, hanonymous⟩
  · rintro ⟨⟨htype, hname, hinputs⟩, hanonymous⟩
    exact ⟨htype, ⟨hname, hinputs⟩, hanonymous⟩

instance : DecidablePred IsFunction := fun entry =>
  decidable_of_iff ((outcome 0 entry).function?.isSome = true) isSome_function?_iff

instance : DecidablePred IsEvent := fun entry =>
  decidable_of_iff ((outcome 0 entry).event?.isSome = true) isSome_event?_iff

/-! ## Lists of entries -/

/-- The name, the position and the text that a declaration at a position of a list takes from
its entry. -/
def origin (entry : Json) (position : Nat) : Option String × Nat × Option Text :=
  (entry.field? "name" >>= Json.string?, position, some entry.compact)

section

variable {δ : Type}

/-- Entries are read one by one: whether an entry is accepted does not depend on its position,
and what it declares differs between positions by the position only. -/
structure ReadsEntries (accepted : Json → Prop) (originOf : δ → Option String × Nat × Option Text)
    (shift : Nat → δ → δ) (read : Nat → Json → Option δ) : Prop where
  isSome_iff : ∀ {position entry}, (read position entry).isSome = true ↔ accepted entry
  origin_eq : ∀ {position entry declaration}, read position entry = some declaration →
    originOf declaration = origin entry position
  read_add : ∀ {position entry declaration}, read position entry = some declaration →
    ∀ distance, read (distance + position) entry = some (shift distance declaration)

variable {accepted : Json → Prop} {originOf : δ → Option String × Nat × Option Text}
  {shift : Nat → δ → δ} {read : Nat → Json → Option δ}

/-- An entry that is rejected at one position is rejected at every position. -/
theorem ReadsEntries.eq_none (hread : ReadsEntries accepted originOf shift read) {position : Nat}
    {entry : Json} (hnone : read position entry = none) (other : Nat) :
    read other entry = none := by
  rw [← Option.not_isSome_iff_eq_none, hread.isSome_iff] at hnone ⊢
  exact hnone

/-- What the entries of a list declare: each of the accepted ones in their order, at its position
in the list. -/
def acceptedOrigins (accepted : Json → Prop) [DecidablePred accepted] (entries : List Json) :
    List (Option String × Nat × Option Text) :=
  (entries.zipIdx.filter fun (entry, _) => accepted entry).map
    fun (entry, position) => origin entry position

theorem ReadsEntries.map_origin_eq [DecidablePred accepted]
    (hread : ReadsEntries accepted originOf shift read) (entries : List Json) :
    (entries.zipIdx.filterMap fun (entry, position) => read position entry).map originOf =
      acceptedOrigins accepted entries := by
  rw [acceptedOrigins, List.map_filterMap, ← List.filterMap_eq_map, List.filterMap_filter]
  apply List.filterMap_congr
  rintro ⟨entry, position⟩ -
  have haccepted : (read position entry).isSome = true ↔ accepted entry := hread.isSome_iff
  cases hentry : read position entry with
  | none => simp_all
  | some declaration => simp_all [hread.origin_eq hentry]

/-- Two lists in a row declare what each of them declares, the second one further on. -/
theorem ReadsEntries.filterMap_append (hread : ReadsEntries accepted originOf shift read)
    (entries more : List Json) :
    (entries ++ more).zipIdx.filterMap (fun (entry, position) => read position entry) =
      entries.zipIdx.filterMap (fun (entry, position) => read position entry) ++
        (more.zipIdx.filterMap fun (entry, position) => read position entry).map
          (shift entries.length) := by
  rw [List.zipIdx_append, List.filterMap_append, Nat.zero_add, List.map_filterMap,
    List.zipIdx_eq_map_add (i := entries.length), List.filterMap_map]
  congr 1
  apply List.filterMap_congr
  rintro ⟨entry, position⟩ -
  simp only [Function.comp_apply]
  cases hentry : read position entry with
  | none => exact hread.eq_none hentry _
  | some declaration => exact hread.read_add hentry entries.length

end

/-- The origin that a function of an interface list keeps. -/
def functionOrigin (function : FunctionDeclaration) : Option String × Nat × Option Text :=
  (some function.name, function.offset, function.entry)

def eventOrigin (event : EventDeclaration) : Option String × Nat × Option Text :=
  (some event.name, event.offset, event.entry)

theorem string?_name_of_required {entry : Json} {name : String}
    (hname : required "name" entryName entry = .valid name) :
    (entry.field? "name" >>= Json.string?) = some name := by
  obtain ⟨-, hfield⟩ := required_entryName_eq_valid_iff.mp hname
  simp [hfield, Json.string?_eq_some_iff]

theorem readsEntries_function : ReadsEntries IsFunction functionOrigin FunctionDeclaration.shift
    fun position entry => (outcome position entry).function? where
  isSome_iff := isSome_function?_iff
  origin_eq := by
    intro position entry declaration hread
    obtain ⟨-, hentry⟩ := function?_outcome_eq_some_iff.mp hread
    obtain ⟨name, _, _, _, _, hname, -, -, -, -, rfl⟩ := functionEntry_eq_valid_iff.mp hentry
    rw [origin, string?_name_of_required hname]
    rfl
  read_add := by
    intro position entry declaration hread distance
    obtain ⟨htype, hentry⟩ := function?_outcome_eq_some_iff.mp hread
    obtain ⟨name, inputs, outputs, constant, payable, hname, hinputs, houtputs, hconstant,
      hpayable, rfl⟩ := functionEntry_eq_valid_iff.mp hentry
    refine function?_outcome_eq_some_iff.mpr ⟨htype, functionEntry_eq_valid_iff.mpr
      ⟨name, inputs, outputs, constant, payable, hname, hinputs, houtputs, hconstant, hpayable, ?_⟩⟩
    rw [FunctionDeclaration.shift, Nat.add_comm]

theorem readsEntries_event : ReadsEntries IsEvent eventOrigin EventDeclaration.shift
    fun position entry => (outcome position entry).event? where
  isSome_iff := isSome_event?_iff
  origin_eq := by
    intro position entry declaration hread
    obtain ⟨-, hentry⟩ := event?_outcome_eq_some_iff.mp hread
    obtain ⟨name, _, _, hname, -, -, rfl⟩ := eventEntry_eq_valid_iff.mp hentry
    rw [origin, string?_name_of_required hname]
    rfl
  read_add := by
    intro position entry declaration hread distance
    obtain ⟨htype, hentry⟩ := event?_outcome_eq_some_iff.mp hread
    obtain ⟨name, inputs, isAnonymous, hname, hinputs, hanonymous, rfl⟩ :=
      eventEntry_eq_valid_iff.mp hentry
    refine event?_outcome_eq_some_iff.mpr ⟨htype, eventEntry_eq_valid_iff.mpr
      ⟨name, inputs, isAnonymous, hname, hinputs, hanonymous, ?_⟩⟩
    rw [EventDeclaration.shift, Nat.add_comm]

theorem functions_eq_filterMap (entries : List Json) : functions entries =
    entries.zipIdx.filterMap fun (entry, position) => (outcome position entry).function? := by
  rw [functions, outcomes, List.filterMap_map]
  rfl

theorem events_eq_filterMap (entries : List Json) : events entries =
    entries.zipIdx.filterMap fun (entry, position) => (outcome position entry).event? := by
  rw [events, outcomes, List.filterMap_map]
  rfl

theorem map_functionOrigin_functions (entries : List Json) :
    (functions entries).map functionOrigin = acceptedOrigins IsFunction entries := by
  rw [functions_eq_filterMap, readsEntries_function.map_origin_eq]

theorem map_eventOrigin_events (entries : List Json) :
    (events entries).map eventOrigin = acceptedOrigins IsEvent entries := by
  rw [events_eq_filterMap, readsEntries_event.map_origin_eq]

theorem functions_append (entries more : List Json) : functions (entries ++ more) =
    functions entries ++ (functions more).map (·.shift entries.length) := by
  simp only [functions_eq_filterMap, readsEntries_function.filterMap_append]

theorem events_append (entries more : List Json) : events (entries ++ more) =
    events entries ++ (events more).map (·.shift entries.length) := by
  simp only [events_eq_filterMap, readsEntries_event.filterMap_append]

end Interface

namespace Extraction

/-! ## Lists that are extracted -/

variable {entries more : List Json} {extraction : Extraction}

theorem ofList_eq_ok_iff : ofList entries = .ok extraction ↔
    (Json.arr entries).check = .ok () ∧ extraction = ofInterface entries := by
  rw [ofList, Json.written]
  cases (Json.arr entries).check with
  | error fault => simp [bind, Except.bind]
  | ok _ => simp [bind, Except.bind, pure, Except.pure, ofInterface, Json.compact, eq_comm]

theorem ofList_of_nesting_le (hnesting : (Json.arr entries).nesting ≤ Json.nestingLimit) :
    ofList entries =
      if ∀ n ∈ (Json.arr entries).integers, Json.IsShort n then .ok (ofInterface entries)
      else .error .longInteger := by
  rw [ofList, Json.written, Json.check_of_nesting_le hnesting]
  split <;> rfl

/-- Two lists in a row can be extracted exactly if each of them can. -/
theorem check_append : (Json.arr (entries ++ more)).check = .ok () ↔
    (Json.arr entries).check = .ok () ∧ (Json.arr more).check = .ok () := by
  have hitems : ∀ items, (Json.arr items).check = .ok () ↔
      ∀ item ∈ items, item.checkWithin (Json.nestingLimit - 1) = .ok () :=
    fun _ => Json.checkItems_eq_ok_iff
  rw [hitems, hitems, hitems, List.forall_mem_append]

/-- A list that was read can be extracted, whether it stands by itself or under a name. -/
theorem check_of_probe {text : String} {name : Option Text}
    (hprobe : Probe.ofText text = .interface entries name) : (Json.arr entries).check = .ok () := by
  obtain ⟨value, hread, hlist⟩ := Probe.exists_read_of_ofText hprobe
  have hvalue := Json.check_of_read hread
  rcases hlist with rfl | hfield
  · exact hvalue
  · exact Json.check_of_field? hvalue hfield

/-- What a list of values is extracted to. -/
structure FollowsEntries (entries : List Json) : Prop where
  /-- Unless it is nested too deeply, only an integer that is too long keeps a list from being
  extracted. -/
  ofList_eq : (Json.arr entries).nesting ≤ Json.nestingLimit → ofList entries =
    if ∀ n ∈ (Json.arr entries).integers, Json.IsShort n then .ok (ofInterface entries)
    else .error .longInteger
  /-- The list that a text is read to is always extracted. -/
  ofList_of_probe : ∀ {text name}, Probe.ofText text = .interface entries name →
    ofList entries = .ok (ofInterface entries)
  /-- Each entry of an extracted list can be written by itself. -/
  entry_written : ∀ {extraction}, ofList entries = .ok extraction →
    ∀ entry ∈ entries, entry.written .compact = .ok entry.compact
  functions_accepted : ∀ {extraction}, ofList entries = .ok extraction →
    extraction.functions.map Interface.functionOrigin =
      Interface.acceptedOrigins Interface.IsFunction entries
  events_accepted : ∀ {extraction}, ofList entries = .ok extraction →
    extraction.events.map Interface.eventOrigin =
      Interface.acceptedOrigins Interface.IsEvent entries
  ofList_append : ∀ {more extraction others}, ofList entries = .ok extraction →
    ofList more = .ok others → ∃ whole, ofList (entries ++ more) = .ok whole ∧
      whole.functions = extraction.functions ++ others.functions.map (·.shift entries.length) ∧
      whole.events = extraction.events ++ others.events.map (·.shift entries.length)
  /-- Nothing is extracted from two lists in a row of which one cannot be extracted. -/
  of_ofList_append : ∀ {more whole}, ofList (entries ++ more) = .ok whole →
    ∃ extraction others, ofList entries = .ok extraction ∧ ofList more = .ok others

/-- Every list of values that can be written is extracted, and declares the functions and the
events among its entries. -/
theorem followsEntries (entries : List Json) : FollowsEntries entries where
  ofList_eq := ofList_of_nesting_le
  ofList_of_probe hprobe := ofList_eq_ok_iff.mpr ⟨check_of_probe hprobe, rfl⟩
  entry_written := by
    intro extraction hextraction entry hentry
    obtain ⟨hcheck, -⟩ := ofList_eq_ok_iff.mp hextraction
    exact Json.written_of_check (Json.check_of_mem hcheck hentry) .compact
  functions_accepted := by
    intro extraction hextraction
    obtain ⟨-, rfl⟩ := ofList_eq_ok_iff.mp hextraction
    exact Interface.map_functionOrigin_functions entries
  events_accepted := by
    intro extraction hextraction
    obtain ⟨-, rfl⟩ := ofList_eq_ok_iff.mp hextraction
    exact Interface.map_eventOrigin_events entries
  ofList_append := by
    intro more extraction others hextraction hothers
    obtain ⟨hfirst, rfl⟩ := ofList_eq_ok_iff.mp hextraction
    obtain ⟨hsecond, rfl⟩ := ofList_eq_ok_iff.mp hothers
    exact ⟨ofInterface (entries ++ more),
      ofList_eq_ok_iff.mpr ⟨check_append.mpr ⟨hfirst, hsecond⟩, rfl⟩,
      Interface.functions_append entries more, Interface.events_append entries more⟩
  of_ofList_append := by
    intro more whole hwhole
    obtain ⟨hfirst, hsecond⟩ := check_append.mp (ofList_eq_ok_iff.mp hwhole).1
    exact ⟨_, _, ofList_eq_ok_iff.mpr ⟨hfirst, rfl⟩, ofList_eq_ok_iff.mpr ⟨hsecond, rfl⟩⟩

/-- An integer that is too long keeps the list around it from being extracted. -/
theorem ofList_ne_ok_of_mem {n : Int} (hmem : .int n ∈ entries) (hlong : ¬ Json.IsShort n)
    (extraction : Extraction) : ofList entries ≠ .ok extraction := by
  intro hextraction
  obtain ⟨hcheck, -⟩ := ofList_eq_ok_iff.mp hextraction
  apply hlong
  apply (Json.checkWithin_eq_ok_iff.mp hcheck).2
  exact Json.mem_integersOfItems.mpr ⟨.int n, hmem, List.mem_cons_self⟩

/-- Shallow nesting is not enough to be extracted: the shortest integer that is too long is
nested once. -/
theorem not_all_lists_extracted :
    ¬ ∀ entries, (Json.arr entries).nesting < 300 →
      ∃ extraction, ofList entries = .ok extraction := by
  intro hall
  have hnesting : ∀ n, (Json.arr [.int n]).nesting < 300 := fun n => by
    simp [Json.nesting, Json.nestingItems]
  have hlong : ¬ Json.IsShort (10 ^ Numeral.digitLimit : ℕ) := by
    rw [Json.isShort_iff, Int.natAbs_natCast]
    exact lt_irrefl _
  obtain ⟨extraction, hextraction⟩ := hall _ (hnesting (10 ^ Numeral.digitLimit : ℕ))
  exact ofList_ne_ok_of_mem List.mem_cons_self hlong extraction hextraction

example :
    (ofInterface [
      .record [("type", .ofString "function"), ("name", .ofString "f"),
        ("payable", .ofString "perhaps")],
      .null,
      .record [("type", .ofString "function"), ("name", .ofString "g"), ("inputs", .null),
        ("constant", .ofString "Yes")]]).functions.map
      (fun function => (function.name, function.offset, function.mutability)) =
        [("g", 2, .view)] := by
  decide +kernel

end Extraction

end ContractAtlas
