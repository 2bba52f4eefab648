import ContractAtlas.Batch
import ContractAtlas.Proofs.Extraction
import Mathlib.Data.List.Forall2

/-!
# Accounting of batches

A batch tells what became of each of its texts, in the order in which they were submitted:
a text that is a contract appears among the contracts, any other one among the errors, and
a blank one nowhere.  One text has no influence on what is told of another, so that batches
are joined by joining what they tell (`told_append`), and texts that are put between others
take nothing away.
-/

namespace ContractAtlas.Batch

variable {inputs xs ys zs : List (String × String)} {name source : String}

/-! ## What a batch has to tell -/

/-- Whether a named text is blank. -/
def isBlank (input : String × String) : Bool :=
  Text.allBlank input.2.toList

/-- Whether a named text is a contract. -/
def succeeds (input : String × String) : Bool :=
  (Contract.ofText input.2).isOk

/-- The contract of a text, with nothing changed but its name.  It has the name that was
submitted with the text, or its own if that one is empty. -/
def GivesContract (input : String × String) (entry : NamedContract) : Prop :=
  ∃ contract, Contract.ofText input.2 = .ok contract ∧
    entry.name = (if input.1 = "" then contract.name else input.1) ∧
    entry.contract = { contract with name := entry.name }

/-- The error of a text, under the name that was submitted with it. -/
def GivesError (input : String × String) (message : String) : Prop :=
  ∃ error, Contract.ofText input.2 = .error error ∧
    message = "Error analyzing " ++ input.1 ++ ": " ++ error.message

/-- What is told about the texts of a batch, contracts and errors each in their order. -/
structure Tells (inputs : List (String × String)) (result : BatchResult) : Prop where
  contracts : List.Forall₂ GivesContract (inputs.filter succeeds) result.contracts
  errors : List.Forall₂ GivesError (inputs.filter fun input => !isBlank input && !succeeds input)
    result.errors
  length_eq : result.contracts.length + result.errors.length =
    (inputs.filter fun input => !isBlank input).length

/-- What two batches tell, one behind the other. -/
def join (left right : BatchResult) : BatchResult :=
  { contracts := left.contracts ++ right.contracts
    errors := left.errors ++ right.errors }

theorem Tells.join {left right : BatchResult} (hleft : Tells xs left) (hright : Tells ys right) :
    Tells (xs ++ ys) (join left right) where
  contracts := by
    rw [List.filter_append]
    exact List.rel_append hleft.contracts hright.contracts
  errors := by
    rw [List.filter_append]
    exact List.rel_append hleft.errors hright.errors
  length_eq := by
    rw [List.filter_append, List.length_append, ← hleft.length_eq, ← hright.length_eq, Batch.join,
      List.length_append, List.length_append]
    omega

/-- The contracts and errors of a batch, whether or not it fails as a whole. -/
def told (inputs : List (String × String)) : BatchResult :=
  { contracts := (outcomes inputs).filterMap BatchOutcome.result?
    errors := (outcomes inputs).filterMap BatchOutcome.errorText? }

theorem analyse_eq (inputs : List (String × String)) :
    analyse inputs = if (told inputs).contracts.isEmpty then .error ⟨(told inputs).errors⟩
      else .ok (told inputs) := rfl

theorem told_append (xs ys : List (String × String)) :
    told (xs ++ ys) = join (told xs) (told ys) := by
  simp only [told, join, outcomes, pending, List.filter_append, List.map_append,
    List.filterMap_append]

/-! ## One text -/

theorem ofText_of_isBlank (hblank : isBlank (name, source) = true) :
    Contract.ofText source = .error (.ofText .blank source) := by
  have hextract : Extraction.ofText source = .error (.ofText .blank source) := by
    rw [isBlank] at hblank
    rw [Extraction.ofText, if_pos hblank]
  rw [Contract.ofText, hextract]
  rfl

theorem isBlank_of_ok {contract : Contract} (hcontract : Contract.ofText source = .ok contract) :
    isBlank (name, source) = false := by
  by_contra hblank
  rw [ofText_of_isBlank (Bool.eq_true_of_not_eq_false hblank)] at hcontract
  contradiction

theorem outcomes_singleton_of_isBlank (hblank : isBlank (name, source) = true) :
    outcomes [(name, source)] = [] := by
  rw [outcomes, pending, List.filter_cons_of_neg (by simpa [isBlank] using hblank)]
  rfl

theorem outcomes_singleton (hblank : isBlank (name, source) = false) :
    outcomes [(name, source)] = [outcome name source] := by
  rw [outcomes, pending, List.filter_cons_of_pos (by simpa [isBlank] using hblank)]
  rfl

theorem givesContract_named {contract : Contract}
    (hcontract : Contract.ofText source = .ok contract) :
    GivesContract (name, source) (named name contract) := by
  refine ⟨contract, hcontract, ?_⟩
  rw [named]
  by_cases hname : name = ""
  · simp [hname]
  · have hnonempty : name.isEmpty = false := by simpa using hname
    simp [hname, hnonempty]

theorem succeeds_of_isBlank {input : String × String} (hblank : isBlank input = true) :
    succeeds input = false := by
  rw [succeeds, ofText_of_isBlank hblank]
  rfl

theorem tells_of_isBlank (hblank : isBlank (name, source) = true) :
    Tells [(name, source)] (told [(name, source)]) := by
  rw [told, outcomes_singleton_of_isBlank hblank]
  constructor <;> simp [hblank, succeeds_of_isBlank hblank]

theorem tells_of_ok {contract : Contract} (hcontract : Contract.ofText source = .ok contract) :
    Tells [(name, source)] (told [(name, source)]) := by
  have hsucceeds : succeeds (name, source) = true := by
    rw [succeeds, hcontract]
    rfl
  have houtcome : outcome name source = .analysed (named name contract) := by
    rw [outcome, hcontract]
  have htold : told [(name, source)] = ⟨[named name contract], []⟩ := by
    rw [told, outcomes_singleton (isBlank_of_ok hcontract), houtcome]
    rfl
  rw [htold]
  constructor
  · rw [List.filter_cons_of_pos hsucceeds]
    exact .cons (givesContract_named hcontract) .nil
  · simp [hsucceeds]
  · simp [isBlank_of_ok hcontract]

theorem tells_of_error {error : FormatError} (hblank : isBlank (name, source) = false)
    (herror : Contract.ofText source = .error error) :
    Tells [(name, source)] (told [(name, source)]) := by
  have hfails : succeeds (name, source) = false := by
    rw [succeeds, herror]
    rfl
  have houtcome : outcome name source = .failed name error := by
    rw [outcome, herror]
  have htold : told [(name, source)] =
      ⟨[], ["Error analyzing " ++ name ++ ": " ++ error.message]⟩ := by
    rw [told, outcomes_singleton hblank, houtcome]
    rfl
  rw [htold]
  constructor
  · simp [hfails]
  · rw [List.filter_cons_of_pos (by simp [hblank, hfails])]
    exact .cons ⟨error, herror, rfl⟩ .nil
  · simp [hblank]

/-! ## All texts -/

/-- A batch tells of each of its texts, by induction on the texts: the first one is blank,
a contract, or refused. -/
theorem tells_told (inputs : List (String × String)) : Tells inputs (told inputs) := by
  induction inputs with
  | nil => exact ⟨.nil, .nil, rfl⟩
  | cons input rest ih =>
      have hfirst : Tells [input] (told [input]) := by
        obtain ⟨name, source⟩ := input
        cases hanalysis : Contract.ofText source with
        | ok contract => exact tells_of_ok hanalysis
        | error error =>
            cases hblank : isBlank (name, source) with
            | true => exact tells_of_isBlank hblank
            | false => exact tells_of_error hblank hanalysis
      rw [← List.singleton_append, told_append]
      exact hfirst.join ih

/-- A batch has no contracts exactly if none of its texts is one. -/
theorem contracts_told_eq_nil_iff :
    (told inputs).contracts = [] ↔ ∀ input ∈ inputs, succeeds input = false := by
  rw [← List.length_eq_zero_iff, ← (tells_told inputs).contracts.length_eq,
    List.length_eq_zero_iff, List.filter_eq_nil_iff]
  simp only [Bool.not_eq_true]

/-! ## The law of batches -/

/-- When a batch fails, and what it tells if it does and if it does not. -/
structure Accounts (inputs : List (String × String)) : Prop where
  fails_iff : (∃ error, analyse inputs = .error error) ↔
    ∀ input ∈ inputs, isBlank input = false → succeeds input = false
  message_of_none : ∀ error, analyse inputs = .error error →
    (∀ input ∈ inputs, isBlank input = true) →
      error.message = "No contracts to analyze. Please add contract source code." ∧
        error.errors = []
  message_of_some : ∀ error, analyse inputs = .error error →
    (∃ input ∈ inputs, isBlank input = false) →
      error.message = "\n".intercalate error.errors ∧
        List.Forall₂ GivesError (inputs.filter fun input => !isBlank input) error.errors
  tells : ∀ result, analyse inputs = .ok result → Tells inputs result

theorem analyse_eq_error_iff {error : BatchError} :
    analyse inputs = .error error ↔
      (told inputs).contracts = [] ∧ error.errors = (told inputs).errors := by
  rw [analyse_eq]
  by_cases hnone : (told inputs).contracts = []
  · have hempty : (told inputs).contracts.isEmpty = true := by simpa using hnone
    rw [if_pos hempty]
    constructor
    · intro herror
      injection herror with herror
      exact ⟨hnone, by rw [← herror]⟩
    · rintro ⟨-, herrors⟩
      rw [← herrors]
  · have hnonempty : ¬ (told inputs).contracts.isEmpty = true := by simpa using hnone
    rw [if_neg hnonempty]
    constructor
    · intro herror
      contradiction
    · rintro ⟨hnil, -⟩
      exact absurd hnil hnone

theorem analyse_eq_ok_iff {result : BatchResult} :
    analyse inputs = .ok result ↔ (told inputs).contracts ≠ [] ∧ result = told inputs := by
  rw [analyse_eq]
  by_cases hnone : (told inputs).contracts = []
  · simp [hnone]
  · have hnonempty : ¬ (told inputs).contracts.isEmpty = true := by simpa using hnone
    rw [if_neg hnonempty]
    constructor
    · intro hresult
      injection hresult with hresult
      exact ⟨hnone, hresult.symm⟩
    · rintro ⟨-, rfl⟩
      rfl

theorem accounts (inputs : List (String × String)) : Accounts inputs where
  fails_iff := by
    have hiff : (∃ error, analyse inputs = .error error) ↔ (told inputs).contracts = [] := by
      simp only [analyse_eq_error_iff, exists_and_left]
      exact and_iff_left ⟨⟨_⟩, rfl⟩
    rw [hiff, contracts_told_eq_nil_iff]
    constructor
    · exact fun hnone input hinput _ => hnone input hinput
    · intro hnone input hinput
      cases hblank : isBlank input with
      | true => exact succeeds_of_isBlank hblank
      | false => exact hnone input hinput hblank
  message_of_none := by
    intro error herror hblank
    obtain ⟨-, herrors⟩ := analyse_eq_error_iff.mp herror
    have hlength := (tells_told inputs).length_eq
    rw [List.filter_eq_nil_iff.mpr (by simpa using hblank), List.length_nil] at hlength
    have hnil : error.errors = [] := by
      rw [herrors]
      exact List.length_eq_zero_iff.mp (by omega)
    exact ⟨by rw [BatchError.message, hnil]; rfl, hnil⟩
  message_of_some := by
    rintro error herror ⟨input, hinput, hblank⟩
    obtain ⟨hnone, herrors⟩ := analyse_eq_error_iff.mp herror
    have hfails := contracts_told_eq_nil_iff.mp hnone
    have hall : (inputs.filter fun input => !isBlank input && !succeeds input) =
        inputs.filter fun input => !isBlank input := by
      apply List.filter_congr
      intro other hother
      rw [hfails other hother]
      simp
    have htells := (tells_told inputs).errors
    rw [hall, ← herrors] at htells
    refine ⟨?_, htells⟩
    have hmem : input ∈ inputs.filter fun input => !isBlank input :=
      List.mem_filter.mpr ⟨hinput, by simp [hblank]⟩
    have hne : error.errors ≠ [] := by
      intro hnil
      rw [hnil] at htells
      rw [List.forall₂_nil_right_iff.mp htells] at hmem
      contradiction
    have hnonempty : error.errors.isEmpty = false := by simpa using hne
    rw [BatchError.message, hnonempty]
    rfl
  tells := by
    intro result hresult
    obtain ⟨-, rfl⟩ := analyse_eq_ok_iff.mp hresult
    exact tells_told inputs

/-- Every batch accounts for its texts, and texts that are put between others leave what is
told of those as it is. -/
theorem accounts_and_isolates :
    (∀ inputs, Accounts inputs) ∧
    ∀ xs ys zs outer, analyse (xs ++ zs) = .ok outer →
      ∃ whole before between behind, analyse (xs ++ ys ++ zs) = .ok whole ∧
        Tells xs before ∧ Tells ys between ∧ Tells zs behind ∧
        whole.contracts = before.contracts ++ between.contracts ++ behind.contracts ∧
        whole.errors = before.errors ++ between.errors ++ behind.errors ∧
        outer.contracts = before.contracts ++ behind.contracts ∧
        outer.errors = before.errors ++ behind.errors := by
  refine ⟨accounts, fun xs ys zs outer houter => ?_⟩
  obtain ⟨hsome, rfl⟩ := analyse_eq_ok_iff.mp houter
  have hwhole : (told (xs ++ ys ++ zs)).contracts ≠ [] := by
    rw [ne_eq, contracts_told_eq_nil_iff] at hsome ⊢
    intro hnone
    apply hsome
    intro input hinput
    apply hnone
    simp only [List.mem_append] at hinput ⊢
    exact hinput.imp_left .inl
  refine ⟨told (xs ++ ys ++ zs), told xs, told ys, told zs, analyse_eq_ok_iff.mpr ⟨hwhole, rfl⟩,
    tells_told xs, tells_told ys, tells_told zs, ?_, ?_, ?_, ?_⟩
  all_goals simp only [told_append, join]

/-- A contract under a name of its own, and nothing. -/
def openingTexts : List (String × String) :=
  [("Vault", "contract Safe \x7b \x7d"), ("Empty", " \n")]

/-- Texts that are no contracts, so that nothing succeeds if they are a batch. -/
def refusedTexts : List (String × String) :=
  [("Number", "1"), ("", "\t"), ("Object", "\x7b\x7d")]

/-- A contract that was submitted without a name. -/
def closingTexts : List (String × String) :=
  [("", "contract Token \x7b \x7d")]

theorem accounts_and_isolates_refusedTexts :
    (analyse refusedTexts = .error ⟨[
        "Error analyzing Number: Invalid contract format: JSON input must be an interface list",
        "Error analyzing Object: Invalid contract format: JSON input must be an interface list"]⟩ ∧
      Accounts refusedTexts) ∧
    ∃ outer whole before between behind,
      analyse (openingTexts ++ closingTexts) = .ok outer ∧
      outer.contracts.map (·.contract.name) = ["Vault", "Token"] ∧
      analyse (openingTexts ++ refusedTexts ++ closingTexts) = .ok whole ∧
      Tells openingTexts before ∧ Tells refusedTexts between ∧ Tells closingTexts behind ∧
      whole.contracts = before.contracts ++ between.contracts ++ behind.contracts ∧
      whole.errors = before.errors ++ between.errors ++ behind.errors ∧
      outer.contracts = before.contracts ++ behind.contracts ∧
      outer.errors = before.errors ++ behind.errors := by
  constructor
  · exact ⟨by decide +kernel, accounts_and_isolates.1 refusedTexts⟩
  · have hnames : (analyse (openingTexts ++ closingTexts)).map
        (·.contracts.map (·.contract.name)) = .ok ["Vault", "Token"] := by decide +kernel
    obtain ⟨outer, houter, hnames⟩ := exists_of_map_eq_ok hnames
    obtain ⟨whole, before, between, behind, hwhole, htells⟩ :=
      accounts_and_isolates.2 openingTexts refusedTexts closingTexts outer houter
    exact ⟨outer, whole, before, between, behind, houter, hnames, hwhole, htells⟩

end ContractAtlas.Batch
