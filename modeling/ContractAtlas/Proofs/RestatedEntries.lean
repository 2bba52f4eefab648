import ContractAtlas.Proofs.Gate
import ContractAtlas.Proofs.Interface.Restated

/-!
# Contracts of old and new interface lists

An entry that states a mutability in place of a flag declares the same function, but its scope
is another text.  Of the words that are looked for in scopes only `view` makes a difference: it
stands in a new entry and not in an old one, and it is a reason to take the function for one
that users may call.  Besides, a name with a quotation mark can occur across the border of a
string, where a flag stands next to what follows it.

So a contract stays the same if an entry is restated, except for the roles and the calls of
this one function (`restated_ofInterface`).  These stay the same too, if no name holds a
quotation mark and the function is for users already.
-/

namespace ContractAtlas

open Json Interface

/-! ## Words that no flag affects -/

theorem lacks_of_notMem {word : List Char} {c : Char} (hc : c ∈ word) {text : Text}
    (htext : CodePoint.char c ∉ text.flatMap (writePoint .compact)) : Lacks word text :=
  fun hinside => htext (hinside.subset (mem_ofChars.mpr hc))

/-- A name without a quotation mark. -/
def isUnquoted (name : String) : Bool :=
  !name.toList.contains '"'

theorem unaffected_call (flag : Flag) {name : String} (hname : isUnquoted name = true) :
    flag.Unaffected (name ++ "(").toList := by
  have hc : '(' ∈ (name ++ "(").toList := by simp
  have hquote : '"' ∉ (name ++ "(").toList := by simpa [isUnquoted] using hname
  refine ⟨⟨hquote, '(', hc, by decide, by decide⟩, ?_, ?_, ?_⟩ <;> apply lacks_of_notMem hc <;>
    cases flag <;> decide

/-- A word of the rules for roles, but for the one that a flag stands for. -/
theorem unaffected_guard (flag : Flag) {word : String}
    (hword : word ∈ ["onlyOwner", "onlyAdmin", "pure"] ∨ flag = .payable ∧ word = "view") :
    flag.Unaffected word.toList := by
  have hguards : ∀ word ∈ ["onlyOwner", "onlyAdmin", "pure"], flag.Unaffected word.toList := by
    cases flag <;> decide +kernel
  rcases hword with hword | ⟨rfl, rfl⟩
  · exact hguards word hword
  · decide +kernel

theorem unaffected_token (flag : Flag) {rule : Rule Severity} {token : String}
    (hrule : rule ∈ Rule.catalog) (htoken : token ∈ rule.tokens) :
    flag.Unaffected token.toList := by
  have hall : ∀ token ∈ Rule.catalog.flatMap (·.tokens), flag.Unaffected token.toList := by
    cases flag <;> decide +kernel
  exact hall token (Rule.mem_tokens_catalog hrule htoken)

/-- Texts that mention the same unaffected words. -/
def SameWords (flag : Flag) (old new : Text) : Prop :=
  ∀ word : String, flag.Unaffected word.toList → old.mentions word = new.mentions word

theorem Rule.appliesTo_eq {flag : Flag} {old new : Text} (hsame : SameWords flag old new)
    {rule : Rule Severity} (hrule : rule ∈ Rule.catalog) :
    rule.appliesTo old = rule.appliesTo new := by
  rw [Bool.eq_iff_iff, Rule.appliesTo, Rule.appliesTo, List.any_eq_true, List.any_eq_true]
  refine exists_congr fun token => and_congr_right fun htoken => ?_
  rw [hsame token (unaffected_token flag hrule htoken)]

/-! ## Functions with other scopes -/

/-- The same function with another scope, which mentions the same unaffected words. -/
inductive Rescoped (flag : Flag) : FunctionDeclaration → FunctionDeclaration → Prop
  | intro {function : FunctionDeclaration} {old new : Text}
      (hentry : function.entry = some old) (hsame : SameWords flag old new) :
      Rescoped flag function { function with entry := some new }

theorem rescoped_self (flag : Flag) {function : FunctionDeclaration}
    (hentry : function.entry.isSome = true) : Rescoped flag function function := by
  obtain ⟨scope, hscope⟩ := Option.isSome_iff_exists.mp hentry
  have hrescoped : Rescoped flag function { function with entry := some scope } :=
    .intro hscope fun _ _ => rfl
  rwa [← hscope] at hrescoped

section Forall₂

variable {α β γ : Type} {related : α → β → Prop} {left : List α} {right : List β} {f : α → γ}
  {g : β → γ}

theorem map_eq_of_forall₂ (hrelated : List.Forall₂ related left right)
    (hmap : ∀ {a b}, related a b → f a = g b) : left.map f = right.map g := by
  rw [← List.forall₂_eq_eq_eq]
  exact List.rel_map (fun _ _ hab => hmap hab) hrelated

theorem map_filter_eq_of_forall₂ {p : α → Bool} {q : β → Bool}
    (hrelated : List.Forall₂ related left right) (hmap : ∀ {a b}, related a b → f a = g b)
    (hfilter : ∀ {a b}, related a b → p a = q b) :
    (left.filter p).map f = (right.filter q).map g :=
  have hfiltered := List.rel_filter (fun _ _ hab => Bool.eq_iff_iff.mp (hfilter hab)) hrelated
  map_eq_of_forall₂ hfiltered hmap

end Forall₂

namespace Extraction

/-- Two extractions that differ in the scopes of their functions, and in texts that mention the
same unaffected words. -/
structure RescopedBy (flag : Flag) (old new : Extraction) : Prop where
  rest : new = { old with text := new.text, functions := new.functions }
  stateVariables : old.stateVariables = []
  text : SameWords flag old.text new.text
  functions : List.Forall₂ (Rescoped flag) old.functions new.functions
  events : ∀ event ∈ old.events, event.entry.isSome = true

namespace RescopedBy

variable {flag : Flag} {old new : Extraction} {before after : FunctionDeclaration}
  (hrescoped : RescopedBy flag old new)

theorem sameWords_scopeOf (hfunction : Rescoped flag before after) (old new : Extraction) :
    SameWords flag (old.scopeOf before) (new.scopeOf after) := by
  obtain ⟨hentry, hsame⟩ := hfunction
  rw [Extraction.scopeOf, Extraction.scope, hentry]
  exact hsame

include hrescoped

theorem knownNames_eq : new.knownNames = old.knownNames := by
  rw [knownNames, knownNames]
  congr 1
  exact (map_eq_of_forall₂ hrescoped.functions fun ⟨_, _⟩ => rfl).symm

theorem finding_eq {rule : Rule Severity} (hrule : rule ∈ Rule.catalog) :
    rule.finding new = rule.finding old := by
  have haffected : (new.functions.filter fun function =>
      rule.appliesTo (new.scopeOf function)).map (·.name) = (old.functions.filter fun function =>
        rule.appliesTo (old.scopeOf function)).map (·.name) :=
    (map_filter_eq_of_forall₂ hrescoped.functions (fun ⟨_, _⟩ => rfl) fun hfunction =>
      Rule.appliesTo_eq (sameWords_scopeOf hfunction old new) hrule).symm
  rw [Rule.finding, Rule.finding, haffected]

theorem scan_eq : new.scan Rule.catalog = old.scan Rule.catalog := by
  have hpayable : (new.functions.filter (·.mutability = .payable)).map (payableFinding ·.name) =
      (old.functions.filter (·.mutability = .payable)).map (payableFinding ·.name) :=
    (map_filter_eq_of_forall₂ hrescoped.functions (fun ⟨_, _⟩ => rfl) fun ⟨_, _⟩ => rfl).symm
  have hrules : Rule.catalog.filter (·.appliesTo new.text) =
      Rule.catalog.filter (·.appliesTo old.text) :=
    List.filter_congr fun rule hrule => (Rule.appliesTo_eq hrescoped.text hrule).symm
  have hfindings : (Rule.catalog.filter (·.appliesTo old.text)).map (·.finding new) =
      (Rule.catalog.filter (·.appliesTo old.text)).map (·.finding old) :=
    List.map_congr_left fun rule hrule => hrescoped.finding_eq (List.mem_of_mem_filter hrule)
  rw [scan, scan, hpayable, hrules, hfindings]

theorem eventRecords_eq : new.events.map new.eventRecord = old.events.map old.eventRecord := by
  have hevents : new.events = old.events := by rw [hrescoped.rest]
  rw [hevents]
  apply List.map_congr_left
  intro event hevent
  obtain ⟨entry, hentry⟩ := Option.isSome_iff_exists.mp (hrescoped.events event hevent)
  simp only [eventRecord, emittersOf, hentry, hrescoped.knownNames_eq]

/-- Of the names without a quotation mark a function with another scope calls the same. -/
theorem filter_callsOf_eq (hfunction : Rescoped flag before after) :
    (new.callsOf after).filter isUnquoted = (old.callsOf before).filter isUnquoted := by
  have hself : after.name = before.name := by
    obtain ⟨-, -⟩ := hfunction
    rfl
  rw [callsOf, callsOf, List.filter_filter, List.filter_filter, hrescoped.knownNames_eq, hself]
  apply List.filter_congr
  intro name _
  cases hname : isUnquoted name with
  | false => rfl
  | true =>
      have hsame := sameWords_scopeOf hfunction old new (name ++ "(") (unaffected_call flag hname)
      rw [hsame]

/-- A function keeps its record with its scope. -/
theorem functionRecord_eq {function : FunctionDeclaration} (hentry : function.entry.isSome = true) :
    new.functionRecord function = old.functionRecord function := by
  obtain ⟨scope, hscope⟩ := Option.isSome_iff_exists.mp hentry
  simp only [functionRecord, rolesOf, callsOf, scopeOf, Extraction.scope, hscope,
    Option.getD_some, hrescoped.knownNames_eq]

end RescopedBy

end Extraction

/-! ## The roles of a function -/

/-- The roles of a function whose mutability is stated in place of a flag. -/
def Interface.Flag.roles (flag : Flag) (roles : List String) : List String :=
  match flag with
  | .constant => if roles.contains Role.user then roles else roles ++ [Role.user]
  | .payable => roles

/-- Where the flag stands for a view, the text of the new entry makes the function one for
users, and otherwise the texts give the same roles. -/
theorem classify_restated {flag : Flag} {old new : Text} (hsame : SameWords flag old new)
    (hstated : new.mentions flag.stated.keyword = true) (name : String) :
    Role.classify name new = flag.roles (Role.classify name old) := by
  have howner := hsame "onlyOwner" (unaffected_guard flag (.inl (by decide)))
  have hadmin := hsame "onlyAdmin" (unaffected_guard flag (.inl (by decide)))
  have hpure := hsame "pure" (unaffected_guard flag (.inl (by decide)))
  rw [Role.classify_eq_chosen, Role.classify_eq_chosen, howner, hadmin, hpure]
  generalize (Role.nameSuggests name "owner" || new.mentions "onlyOwner") = isOwner
  generalize (Role.nameSuggests name "admin" || new.mentions "onlyAdmin") = isAdmin
  cases flag with
  | constant =>
      rw [show new.mentions "view" = true from hstated, Bool.true_or, Bool.or_true]
      generalize (Role.nameSuggests name "user" || (old.mentions "view" || new.mentions "pure")) =
        isUser
      revert isOwner isAdmin isUser
      decide
  | payable =>
      rw [hsame "view" (unaffected_guard _ (.inr ⟨rfl, rfl⟩))]
      rfl

theorem Interface.Flag.contains_roles (flag : Flag) (roles : List String) {role : String}
    (hrole : role ≠ Role.user) : (flag.roles roles).contains role = roles.contains role := by
  cases flag with
  | constant =>
      rw [Flag.roles]
      split
      · rfl
      · simp [hrole]
  | payable => rfl

theorem flowCategory_roles (flag : Flag) (roles : List String) (mutability : Option Mutability) :
    Role.flowCategory (flag.roles roles) mutability = Role.flowCategory roles mutability := by
  have howner := flag.contains_roles roles (show Role.owner ≠ Role.user by decide)
  have hadmin := flag.contains_roles roles (show Role.admin ≠ Role.user by decide)
  rw [Role.flowCategory, Role.flowCategory, howner, hadmin]

/-! ## Contracts -/

/-- A contract whose table of roles is that of its functions. -/
def Contract.HasOwnTable (contract : Contract) : Prop :=
  contract.roles = RoleTable.ofAdditions
    (contract.functions.map fun function => (function.name, function.roles))

theorem Contract.eq_of_functions {old new : Contract} (hold : HasOwnTable old)
    (hnew : HasOwnTable new)
    (hrest : new = { old with functions := new.functions, roles := new.roles })
    (hfunctions : new.functions = old.functions) : new = old := by
  have htable : new.roles = old.roles := by rw [hnew, hold, hfunctions]
  rw [hrest, hfunctions, htable]

/-- Two contracts that agree but for the roles and the calls of the function at an index, and
but for what the table of roles says of it. -/
structure Contract.AgreesExcept (flag : Flag) (index : Nat) (old new : Contract) : Prop where
  functions : ∃ record calls, old.functions[index]? = some record ∧
    new.functions = old.functions.set index { record with
      roles := flag.roles record.roles, calls } ∧
    calls.filter isUnquoted = record.calls.filter isUnquoted
  roles : HasOwnTable old ∧ HasOwnTable new
  rest : new = { old with functions := new.functions, roles := new.roles }
  eq_of : (∀ function ∈ old.functions, isUnquoted function.name = true) →
    (∀ record, old.functions[index]? = some record → flag = .constant →
      Role.user ∈ record.roles) → new = old

namespace Interface.Restates

variable {flag : Flag} {old new : Json} (hrestates : Restates flag old new)

include hrestates

theorem sameWords : SameWords flag old.compact new.compact := by
  intro word hword
  rw [Bool.eq_iff_iff, Text.mentions_iff, Text.mentions_iff]
  exact hrestates.infix_compact_iff hword

theorem rescopedBy (before after : List Json) :
    Extraction.RescopedBy flag (.ofInterface (before ++ old :: after))
      (.ofInterface (before ++ new :: after)) := by
  obtain ⟨declaration, back, hentry, hsome, hold, hnew, hevents⟩ :=
    hrestates.exists_split before after
  obtain ⟨hfront, hback⟩ := List.forall_mem_append.mp hsome
  constructor
  · simp only [Extraction.ofInterface, Extraction.ofEntries, hevents]
  · rfl
  · intro word hword
    rw [Bool.eq_iff_iff, Text.mentions_iff, Text.mentions_iff]
    exact hrestates.infix_compact_arr_iff hword before after
  · change List.Forall₂ _ (functions _) (functions _)
    rw [hold, hnew]
    refine List.rel_append (List.forall₂_same.mpr fun function hfunction => ?_) (.cons ?_
      (List.forall₂_same.mpr fun function hfunction => ?_))
    · exact rescoped_self flag (hfront function hfunction)
    · exact .intro hentry hrestates.sameWords
    · exact rescoped_self flag (hback function hfunction)
  · exact fun event => isSome_entry_of_mem_events

/-- The function of a restated entry keeps everything but its roles and its calls. -/
theorem functionRecord_eq {declaration : FunctionDeclaration}
    (hentry : declaration.entry = some old.compact) (before after : Extraction) :
    let restated := { declaration with entry := some new.compact }
    after.functionRecord restated = { before.functionRecord declaration with
      roles := flag.roles (before.functionRecord declaration).roles
      calls := after.callsOf restated } := by
  intro restated
  have hstated : new.compact.mentions flag.stated.keyword = true :=
    Text.mentions_iff.mpr (hrestates.infix_stated (by cases flag <;> decide))
  have hroles : after.rolesOf restated = flag.roles (before.rolesOf declaration) := by
    simp only [Extraction.rolesOf, Extraction.scopeOf, Extraction.scope, hentry, restated,
      Option.getD_some]
    exact classify_restated hrestates.sameWords hstated declaration.name
  simp only [Extraction.functionRecord, hroles, flowCategory_roles, restated]

end Interface.Restates

namespace Extraction.RescopedBy

variable {flag : Flag} {old new : Extraction} (hrescoped : RescopedBy flag old new)

include hrescoped

/-- Scopes matter to the records of functions and to the table of roles, and to the rest of a
contract only if some function comes to be the owner's or the administrator's. -/
theorem contract_eq
    (hcontains : ∀ role, role ≠ Role.user → new.contract.functions.any (·.roles.contains role) =
      old.contract.functions.any (·.roles.contains role)) :
    new.contract = { old.contract with
      functions := new.contract.functions, roles := new.contract.roles } := by
  have howner : new.contract.hasOwnership = old.contract.hasOwnership :=
    hcontains Role.owner (by decide)
  have hadmin : new.contract.hasAccessControl = old.contract.hasAccessControl :=
    hcontains Role.admin (by decide)
  have hevents : new.contract.events = old.contract.events := hrescoped.eventRecords_eq
  have hfindings : new.contract.findings = old.contract.findings := hrescoped.scan_eq
  have hvariables : new.contract.stateVariables = old.contract.stateVariables := by
    have hnone : new.stateVariables = [] := by rw [hrescoped.rest, hrescoped.stateVariables]
    simp [contract, hnone, hrescoped.stateVariables]
  dsimp only
  rw [← howner, ← hadmin, ← hevents, ← hfindings, ← hvariables]
  have hname : new.contractName = old.contractName := by rw [hrescoped.rest]
  have hversion : new.version = old.version := by rw [hrescoped.rest]
  have hlicense : new.license = old.license := by rw [hrescoped.rest]
  have hparents : new.parents = old.parents := by rw [hrescoped.rest]
  have hmodifiers : new.modifiers = old.modifiers := by rw [hrescoped.rest]
  simp only [contract, hname, hversion, hlicense, hparents, hmodifiers]

theorem callsOf_eq {before after : FunctionDeclaration} (hfunction : Rescoped flag before after)
    (hnames : ∀ function ∈ old.contract.functions, isUnquoted function.name = true) :
    new.callsOf after = old.callsOf before := by
  have hknown : ∀ name ∈ old.knownNames, isUnquoted name = true := by
    intro name hname
    obtain ⟨function, hfunction, rfl⟩ :=
      List.mem_map.mp (old.knownNames_subset_declaredNames hname)
    exact hnames function hfunction
  have hcalls := hrescoped.filter_callsOf_eq hfunction
  rwa [List.filter_eq_self.mpr, List.filter_eq_self.mpr] at hcalls
  · exact fun name hname => hknown name ((old.callsOf_sublist before).subset hname)
  · intro name hname
    rw [← hrescoped.knownNames_eq] at hknown
    exact hknown name ((new.callsOf_sublist after).subset hname)

end Extraction.RescopedBy

/-- The records of both contracts: they differ in one function, at the place of its entry. -/
theorem Interface.Restates.exists_records {flag : Flag} {old new : Json}
    (hrestates : Restates flag old new) (before after : List Json) :
    let oldContract := Contract.ofInterface (before ++ old :: after)
    let newContract := Contract.ofInterface (before ++ new :: after)
    ∃ front record calls back, front.length = (functions before).length ∧
      oldContract.functions = front ++ record :: back ∧
      newContract.functions =
        front ++ { record with roles := flag.roles record.roles, calls } :: back ∧
      calls.filter isUnquoted = record.calls.filter isUnquoted ∧
      ((∀ function ∈ oldContract.functions, isUnquoted function.name = true) →
        calls = record.calls) := by
  have hrescoped := hrestates.rescopedBy before after
  obtain ⟨declaration, back, hentry, hsome, hold, hnew, -⟩ := hrestates.exists_split before after
  let oldExtraction := Extraction.ofInterface (before ++ old :: after)
  let newExtraction := Extraction.ofInterface (before ++ new :: after)
  have hkept : ∀ function ∈ functions before ++ back,
      newExtraction.functionRecord function = oldExtraction.functionRecord function :=
    fun function hfunction => hrescoped.functionRecord_eq (hsome function hfunction)
  obtain ⟨hfront, hback⟩ := List.forall_mem_append.mp hkept
  have hfunction : Rescoped flag declaration { declaration with entry := some new.compact } :=
    .intro hentry hrestates.sameWords
  refine ⟨(functions before).map oldExtraction.functionRecord,
    oldExtraction.functionRecord declaration, newExtraction.callsOf _,
    back.map oldExtraction.functionRecord, List.length_map _, ?_, ?_,
    hrescoped.filter_callsOf_eq hfunction, hrescoped.callsOf_eq hfunction⟩
  · change (functions _).map oldExtraction.functionRecord = _
    rw [hold, List.map_append, List.map_cons]
  · change (functions _).map newExtraction.functionRecord = _
    rw [hnew, List.map_append, List.map_cons, List.map_congr_left hfront,
      List.map_congr_left hback, hrestates.functionRecord_eq hentry oldExtraction newExtraction]

/-- A contract agrees with that of the list in which an entry states its mutability in place of
a flag, except for the roles and the calls of this function. -/
theorem restated_ofInterface {flag : Flag} {old new : Json} (hrestates : Restates flag old new)
    (before after : List Json) :
    Contract.AgreesExcept flag (functions before).length
      (Contract.ofInterface (before ++ old :: after))
      (Contract.ofInterface (before ++ new :: after)) := by
  obtain ⟨front, record, calls, back, hlength, hold, hnew, hcalls, hunquoted⟩ :=
    hrestates.exists_records before after
  have hrecord : (Contract.ofInterface (before ++ old :: after)).functions[
      (functions before).length]? = some record := by
    simp [hold, ← hlength]
  have hset : (Contract.ofInterface (before ++ new :: after)).functions =
      (Contract.ofInterface (before ++ old :: after)).functions.set (functions before).length
        { record with roles := flag.roles record.roles, calls } := by
    simp [hold, hnew, ← hlength]
  have hrest := (hrestates.rescopedBy before after).contract_eq fun role hrole => by
    change (Contract.ofInterface _).functions.any _ = (Contract.ofInterface _).functions.any _
    simp only [hold, hnew, List.any_append, List.any_cons, flag.contains_roles record.roles hrole]
  refine ⟨⟨record, calls, hrecord, hset, hcalls⟩,
    ⟨Extraction.roles_contract _, Extraction.roles_contract _⟩, hrest, fun hnames huser => ?_⟩
  have hroles : flag.roles record.roles = record.roles := by
    cases flag with
    | constant => simp [Flag.roles, huser record hrecord rfl]
    | payable => rfl
  have hsame : (Contract.ofInterface (before ++ new :: after)).functions =
      (Contract.ofInterface (before ++ old :: after)).functions := by
    rw [hnew, hold, hroles, hunquoted hnames]
  exact Contract.eq_of_functions (Extraction.roles_contract _) (Extraction.roles_contract _)
    hrest hsame

/-! ## Examples -/

/-- An entry for a function, with one field more. -/
def functionEntryWith (field : String × Json) (name : String) (more : List (String × Json)) :
    Json :=
  .record (("type", .ofString "function") :: ("name", .ofString name) :: field :: more)

def flaggedEntry (flag : Flag) : String → List (String × Json) → Json :=
  functionEntryWith (flag.name, .bool true)

def statingEntry (flag : Flag) : String → List (String × Json) → Json :=
  functionEntryWith ("stateMutability", .ofString flag.stated.keyword)

theorem restates_flaggedEntry {flag : Flag} {name : String} {more : List (String × Json)}
    (haccepted : (outcome 0 (flaggedEntry flag name more)).function?.isSome = true)
    (hcounts : flag.Counts (flaggedEntry flag name more))
    (hmore : ∀ field ∈ more, field.1 ≠ flag.name ∧ field.1 ≠ "stateMutability") :
    Restates flag (flaggedEntry flag name more) (statingEntry flag name more) where
  accepted := isSome_function?_iff.mp haccepted
  counts := hcounts
  fields := by
    let written := List.map fun field : String × Json => (Text.ofString field.1, field.2)
    let front := written [("type", .ofString "function"), ("name", .ofString name)]
    refine ⟨front ++ written more, _, _, ?_, ⟨front, written more, rfl, rfl⟩,
      ⟨front, written more, rfl, rfl⟩, rfl, rfl⟩
    have htype : "type" ≠ flag.name ∧ "type" ≠ "stateMutability" := by cases flag <;> decide
    have hname : "name" ≠ flag.name ∧ "name" ≠ "stateMutability" := by cases flag <;> decide
    intro field hfield
    rw [← List.map_append] at hfield
    obtain ⟨other, hother, rfl⟩ := List.mem_map.mp hfield
    obtain ⟨hflag, hstated⟩ : other.1 ≠ flag.name ∧ other.1 ≠ "stateMutability" := by
      rcases hother with _ | ⟨_, _ | ⟨_, hother⟩⟩
      · exact htype
      · exact hname
      · exact hmore other hother
    exact ⟨fun heq => hflag (Text.ofString_injective heq),
      fun heq => hstated (Text.ofString_injective heq)⟩

theorem restates_ownerEntry :
    Restates .constant (flaggedEntry .constant "owner" []) (statingEntry .constant "owner" []) := by
  have hnone : (flaggedEntry .constant "owner" []).field? "payable" = none := by decide +kernel
  refine restates_flaggedEntry (by decide +kernel) (fun value hvalue => ?_) (by simp)
  rw [hnone] at hvalue
  contradiction

/-- An owner's function of an old list is for users too in a new one. -/
theorem restated_ownerFunction :
    let old := flaggedEntry .constant "owner" []
    let new := statingEntry .constant "owner" []
    Restates .constant old new ∧
      Contract.AgreesExcept .constant 0 (Contract.ofInterface [old]) (Contract.ofInterface [new]) ∧
      (Contract.ofInterface [old]).functions.map (·.roles) = [["owner"]] ∧
      (Contract.ofInterface [new]).functions.map (·.roles) = [["owner", "user"]] :=
  ⟨restates_ownerEntry, restated_ofInterface restates_ownerEntry [] [], by decide +kernel,
    by decide +kernel⟩

/-- A name that reads like the end of one string and the start of the next. -/
def borderName : String := "payable\":true,\"notes\":\""

/-- Neither flag can be restated without a trace: the roles of a function change in one list,
and its calls in the other. -/
theorem not_restated_alike :
    (Contract.ofInterface [flaggedEntry .constant "owner" []] ≠
      Contract.ofInterface [statingEntry .constant "owner" []]) ∧
    (Contract.ofInterface [functionEntryWith ("inputs", .null) borderName [],
        flaggedEntry .payable "f" [("notes", .ofString "(x")]] ≠
      Contract.ofInterface [functionEntryWith ("inputs", .null) borderName [],
        statingEntry .payable "f" [("notes", .ofString "(x")]]) ∧
    ∀ flag : Flag, ¬ ∀ (before after : List Json) (old new : Json), Restates flag old new →
      Contract.ofInterface (before ++ old :: after) =
        Contract.ofInterface (before ++ new :: after) := by
  have hroles : Contract.ofInterface [flaggedEntry .constant "owner" []] ≠
      Contract.ofInterface [statingEntry .constant "owner" []] := by decide +kernel
  have hcalls : Contract.ofInterface [functionEntryWith ("inputs", .null) borderName [],
        flaggedEntry .payable "f" [("notes", .ofString "(x")]] ≠
      Contract.ofInterface [functionEntryWith ("inputs", .null) borderName [],
        statingEntry .payable "f" [("notes", .ofString "(x")]] := by decide +kernel
  refine ⟨hroles, hcalls, fun flag hall => ?_⟩
  cases flag with
  | constant =>
      exact hroles (hall [] [] _ _ restates_ownerEntry)
  | payable =>
      exact hcalls (hall [_] [] _ _ (restates_flaggedEntry (by decide +kernel) trivial (by decide)))

end ContractAtlas
