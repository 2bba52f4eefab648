import ContractAtlas.Proofs.Diagram.Selection
import ContractAtlas.Proofs.Interface.RoundTrip
import ContractAtlas.Proofs.Schema.Acceptance
import ContractAtlas.Proofs.Schema.Reading
import ContractAtlas.Proofs.Service.Passage
import ContractAtlas.Proofs.Text.Encoding

/-!
# Requests for the diagram of a function

A request names a function by a written identity, which has to look like that of a function
(`isFunctionNode`).  What comes back depends on what the identity selects in the contract: the
function, a refusal that tells the identity, or a crash, if the identity has too many digits to
be read (`selects`).  So the only identities that are not met with a refusal, apart from those
of the nodes themselves, are other spellings of their numbers and numerals that are too long.
-/

namespace ContractAtlas.Service

variable {settings : Settings} {rate : RateLimit} {window : RateWindow} {request : Request}
  {contract : Contract} {source id : String}

/-! ## Sending a request -/

/-- The payload of a request for the diagram of a function. -/
def functionPayload (source id : String) : Json :=
  .record [("source", .ofString source), ("node_id", .ofString id)]

def functionRequest (source id : String) : Request :=
  submission "/api/v1/diagrams/function" (functionPayload source id).compact.shown

theorem portable_functionPayload (source id : String) : (functionPayload source id).Portable := by
  refine .record (by simp) ?_
  simp only [List.forall_mem_cons]
  exact ⟨.ofString source, .ofString id, by simp⟩

theorem exists_read_functionPayload (source id : String) : ∃ rest,
    (functionPayload source id).compact.shown = String.ofList ('{' :: '"' :: rest) ∧
      Json.read ('{' :: '"' :: rest) = .ok (functionPayload source id) := by
  have hnesting : (functionPayload source id).nesting ≤ Json.nestingLimit := by
    simp [functionPayload, Json.record, Json.nesting, Json.nestingFields, Json.ofString,
      Json.nestingLimit]
  obtain ⟨chars, hchars, hread⟩ :=
    (portable_functionPayload source id).exists_read_compact hnesting
  have hshown : (functionPayload source id).compact.shown = String.ofList chars := by
    have hstring := Text.shown_ofString (String.ofList chars)
    rw [Text.ofString, String.toList_ofList] at hstring
    rw [hchars, hstring]
  obtain ⟨inside, hinside⟩ :
      ∃ inside, (functionPayload source id).compact = Text.ofChars ['{', '"'] ++ inside := by
    rw [functionPayload, Json.record, Json.compact, Json.write]
    exact ⟨_, rfl⟩
  obtain ⟨rest, hrest⟩ : ∃ rest, chars = ['{', '"'] ++ rest := by
    rw [hinside] at hchars
    obtain ⟨start, rest, rfl, hstart, -⟩ := List.map_eq_append_iff.mp hchars.symm
    have hsame := List.map_injective_iff.mpr (fun _ _ heq => by injection heq) hstart
    exact ⟨rest, by rw [hsame]⟩
  subst hrest
  exact ⟨rest, hshown, hread⟩

theorem payload_functionRequest (source id : String) :
    Payload.ofRequest (functionRequest source id) = .ok (.json (functionPayload source id)) := by
  obtain ⟨rest, hrest, hread⟩ := exists_read_functionPayload source id
  have hdecode : Text.decode? (String.ofList ('{' :: '"' :: rest)).toUTF8 =
      some ('{' :: '"' :: rest) :=
    Text.decode?_toUTF8 (by decide) (by decide)
  have hbody : (functionRequest source id).body.bytes =
      (String.ofList ('{' :: '"' :: rest)).toUTF8 := by
    rw [functionRequest, submission, hrest]
  have hsome : (functionRequest source id).body.bytes.isEmpty = false := by
    rw [hbody, Text.isEmpty_toUTF8, String.isEmpty_eq_false_iff]
    intro hempty
    have hnil := congrArg String.toList hempty
    simp at hnil
  have htype : ((functionRequest source id).header? "content-type").any announcesJson = true := by
    have hname : ("Content-Type".toLower == "content-type") = true := by decide +kernel
    have hannounces : announcesJson "application/json" = true := by decide +kernel
    simp [functionRequest, submission, Request.header?, hname, hannounces]
  rw [Payload.ofRequest, hsome, htype, hbody, hdecode]
  simp [hread]

/-- Any identity in the form of a function's node can be sent along with any source that is
not empty and not too long. -/
theorem passes_functionRequest (hsettings : 0 ≤ settings.maxInputBytes)
    (hleast : 1 ≤ source.length) (hmost : source.length ≤ sourceLimit)
    (hid : isFunctionNode id = true) :
    Passes settings (functionRequest source id) .functionDiagram (.functionDiagram source id) where
  fits := by
    have hname : ("Content-Type".toLower == "content-length") = false := by decide +kernel
    have hnone : (functionRequest source id).header? "content-length" = none := by
      simp [functionRequest, submission, Request.header?, hname]
    have hzero : SizeLimit.announced none = 0 := by decide +kernel
    rw [hnone, SizeLimit.excess?, hzero]
    exact if_neg (Int.not_lt.mpr hsettings)
  leads := by
    have hpath : Endpoint.ofPath? "/api/v1/diagrams/function" = some .functionDiagram := by
      decide +kernel
    have hdestination : Destination.ofRequest (functionRequest source id) =
        .endpoint .functionDiagram := by
      simp [Destination.ofRequest, functionRequest, submission, hpath, Endpoint.method]
    rw [Framework.route_standard, Framework.standardRoute, hdestination]
  not_health := by decide
  asks := by
    have hsource : sourceForm (functionPayload source id) = .valid source := by
      refine Schema.required_eq_valid_iff.mpr ⟨.ofString source, ?_, ?_⟩
      · rw [functionPayload, Json.field?_record_cons, if_pos rfl]
      · simp [Json.ofString, boundedText, Nat.not_lt.mpr hleast, Nat.not_lt.mpr hmost]
    have hnode : Schema.required "node_id" nodeText (functionPayload source id) = .valid id := by
      refine Schema.required_eq_valid_iff.mpr ⟨.ofString id, ?_, ?_⟩
      · rw [functionPayload, Json.field?_record_cons, if_neg (by decide),
          Json.field?_record_cons, if_pos rfl]
      · simp [Json.ofString, nodeText, hid]
    have hform : functionForm (functionPayload source id) = .valid (source, id) := by
      rw [functionForm, hsource, hnode]
      rfl
    have hdecode : (Payload.json (functionPayload source id)).decode functionForm =
        .valid (source, id) := hform
    simp only [Framework.payload_standard, payload_functionRequest, Inquiry.ofPayload, form,
      formWith, hdecode]
    rfl

/-! ## What comes back -/

/-- The identities of the nodes that the flow diagram has for functions. -/
def nodeIds (contract : Contract) : List String :=
  (Diagram.functionNodes (Diagram.flow contract)).map (·.id.text)

theorem mem_nodeIds_iff :
    id ∈ nodeIds contract ↔ ∃ index < contract.functions.length, id = s!"function-{index}" := by
  rw [nodeIds, Diagram.functionNodes_flow]
  rw [List.mem_map]
  constructor
  · rintro ⟨node, hnode, rfl⟩
    obtain ⟨index, hindex, rfl⟩ := List.mem_mapIdx.mp hnode
    exact ⟨index, hindex, rfl⟩
  · rintro ⟨index, hindex, rfl⟩
    exact ⟨_, List.mem_mapIdx.mpr ⟨index, hindex, rfl⟩, rfl⟩

/-- Another spelling of a node's number, or a numeral that is not read. -/
def IsMisread (contract : Contract) (id : String) : Prop :=
  ∃ digits index, Spelled id digits index ∧
    (Numeral.digitLimit < digits.length ∨ index < contract.functions.length)

theorem notFound_iff_not_isMisread :
    contract.select id = .error (.notFound id) ↔ ¬ IsMisread contract id := by
  rw [Contract.select_eq_notFound_iff, IsMisread]
  simp only [not_exists, not_and, not_or, Nat.not_lt, true_and]

/-- A node is misread as little as an identity that is in no way spelled like one: its own
function is what it selects. -/
theorem exists_select_of_mem_nodeIds (hid : id ∈ nodeIds contract)
    (hcount : contract.functions.length < 10 ^ Numeral.digitLimit) :
    ∃ (index : Nat) (function : FunctionRecord), id = s!"function-{index}" ∧
      contract.functions[index]? = some function ∧ contract.select id = .ok function := by
  obtain ⟨index, hindex, rfl⟩ := mem_nodeIds_iff.mp hid
  have hfunction := List.getElem?_eq_getElem hindex
  exact ⟨index, _, rfl, hfunction, contract.select_text hfunction (by omega)⟩

/-- The status with which a client is told what an identity selects.  A function can be told
only if its strings are whole. -/
def selectionStatus (whole : Bool) : Except SelectionError FunctionRecord → Nat
  | .ok _ => if whole then 200 else 500
  | .error (.notFound _) => 404
  | .error (.numeralTooLong _) => 500

/-- Whether the strings of the function are whole that an identity selects. -/
def selectsWhole (source id : String) : Bool :=
  Inquiry.areWhole (Inquiry.selectedStrings source id)

theorem status_telling (strings : List Text) (records : List Log.Record) (answer : Json) :
    (outcomeOf (Inquiry.telling strings records answer).answer).status =
      if Inquiry.areWhole strings then 200 else 500 := by
  rw [Inquiry.telling]
  split <;> rfl

theorem status_answerFunctionDiagram (hcontract : Contract.ofText source = .ok contract) :
    (outcomeOf (Inquiry.answerFunctionDiagram source id).answer).status =
      selectionStatus (selectsWhole source id) (contract.select id) := by
  simp only [Inquiry.answerFunctionDiagram, hcontract]
  split
  next hselect =>
    rw [hselect, status_telling]
    rfl
  next hselect => rw [hselect]; rfl
  next hselect => rw [hselect]; rfl

theorem outcomeOf_answerFunctionDiagram (hcontract : Contract.ofText source = .ok contract)
    (hselect : contract.select id = .error (.notFound id)) :
    outcomeOf (Inquiry.answerFunctionDiagram source id).answer =
      .responded (.json 404 (Refusal.noSuchFunction id).envelope) := by
  simp only [Inquiry.answerFunctionDiagram, hcontract, hselect]
  rfl

/-! ## Spellings -/

/-- Every spelling has the form that a request asks for. -/
theorem isFunctionNode_of_spelled {digits : List Char} {index : Nat}
    (hspelled : Spelled id digits index) : isFunctionNode id = true := by
  have hdrop : id.toList.drop "function-".length = digits := by
    rw [hspelled.text, ← String.length_toList, List.drop_left]
  have hstart : "function-".toList.isPrefixOf id.toList = true :=
    List.isPrefixOf_iff_prefix.mpr ⟨digits, hspelled.text.symm⟩
  have hdigits : digits.all isFormDigit = true := by
    rw [List.all_eq_true]
    intro c hc
    rw [isFormDigit, Text.exists_digitsValue?_iff.mp ⟨index, hspelled.value⟩ c hc, Bool.true_or]
  have hempty : digits.isEmpty = false := List.isEmpty_eq_false_iff.mpr hspelled.ne_nil
  rw [isFunctionNode, hdrop, hstart, hdigits, hempty]
  rfl

theorem IsMisread.isFunctionNode (hmisread : IsMisread contract id) :
    isFunctionNode id = true := by
  obtain ⟨digits, index, hspelled, -⟩ := hmisread
  exact isFunctionNode_of_spelled hspelled

/-- The identity that digits spell. -/
def spelling (digits : List Char) : String :=
  String.ofList ("function-".toList ++ digits)

theorem exists_spelled_spelling {digits : List Char} (hne : digits ≠ [])
    (hdigits : ∀ c ∈ digits, (Text.digitValue? c).isSome = true) :
    ∃ index, Spelled (spelling digits) digits index := by
  obtain ⟨index, hindex⟩ := Text.exists_digitsValue?_iff.mpr hdigits
  exact ⟨index, String.toList_ofList, hne, hindex⟩

theorem select_spelling_of_long {digits : List Char}
    (hdigits : ∀ c ∈ digits, (Text.digitValue? c).isSome = true)
    (hlong : Numeral.digitLimit < digits.length) :
    contract.select (spelling digits) = .error (.numeralTooLong digits.length) := by
  have hne : digits ≠ [] := List.length_pos_iff.mp (by omega)
  obtain ⟨index, hspelled⟩ := exists_spelled_spelling hne hdigits
  exact Contract.select_eq_tooLong_iff.mpr ⟨digits, index, hspelled, rfl, hlong⟩

/-- No node has an identity that crashes. -/
theorem not_mem_nodeIds_of_tooLong {count : Nat}
    (hselect : contract.select id = .error (.numeralTooLong count))
    (hcount : contract.functions.length < 10 ^ Numeral.digitLimit) : id ∉ nodeIds contract := by
  intro hid
  obtain ⟨index, function, -, -, hfound⟩ := exists_select_of_mem_nodeIds hid hcount
  rw [hselect] at hfound
  cases hfound

/-! ## Every identity -/

/-- What an identity comes to in a contract, and in a request about it. -/
structure Selects (contract : Contract) (id : String) : Prop where
  found_iff : ∀ function, contract.select id = .ok function ↔ ∃ digits index,
    Spelled id digits index ∧ digits.length ≤ Numeral.digitLimit ∧
      contract.functions[index]? = some function
  crash_iff : ∀ count, contract.select id = .error (.numeralTooLong count) ↔ ∃ digits index,
    Spelled id digits index ∧ digits.length = count ∧ Numeral.digitLimit < count
  refusal_iff : ∀ told, contract.select id = .error (.notFound told) ↔
    told = id ∧ ¬ IsMisread contract id
  node : id ∈ nodeIds contract → contract.functions.length < 10 ^ Numeral.digitLimit →
    ∃ (index : Nat) (function : FunctionRecord), id = s!"function-{index}" ∧
      contract.functions[index]? = some function ∧ contract.select id = .ok function
  form : IsMisread contract id → isFunctionNode id = true
  sent : ∀ settings source, 0 ≤ settings.maxInputBytes → 1 ≤ source.length →
    source.length ≤ sourceLimit → isFunctionNode id = true →
      Passes settings (functionRequest source id) .functionDiagram (.functionDiagram source id)
  told : ∀ settings rate window request source,
    Passes settings request .functionDiagram (.functionDiagram source id) →
    Contract.ofText source = .ok contract →
    let response := (exchange settings rate window request).result
    response.status ≠ 429 →
      response.status = selectionStatus (selectsWhole source id) (contract.select id) ∧
      (response.status = 404 ↔ ¬ IsMisread contract id) ∧
      (¬ IsMisread contract id →
        response.content = .json (Refusal.noSuchFunction id).envelope)

/-- The refusal of an identity that is not misread, whatever it is. -/
theorem selectionStatus_eq_notFound_iff {whole : Bool} :
    selectionStatus whole (contract.select id) = 404 ↔ ¬ IsMisread contract id := by
  rw [← notFound_iff_not_isMisread]
  rcases contract.select_cases id with ⟨digits, index, -, -, hselect⟩ |
    ⟨digits, index, function, -, -, -, hselect⟩ | ⟨-, hselect⟩ <;>
      cases whole <;> simp [hselect, selectionStatus]

/-- An identity selects the function to which its number counts, however the number is
spelled; without such a function it is refused, and with too many digits the request for it
crashes. -/
theorem selects (contract : Contract) (id : String) : Selects contract id where
  found_iff := fun _ => contract.select_eq_ok_iff
  crash_iff := fun _ => contract.select_eq_tooLong_iff
  refusal_iff := by
    intro told
    rw [Contract.select_eq_notFound_iff, ← notFound_iff_not_isMisread,
      Contract.select_eq_notFound_iff]
    simp only [true_and]
  node := exists_select_of_mem_nodeIds
  form := IsMisread.isFunctionNode
  sent := fun _ _ => passes_functionRequest
  told := by
    intro settings rate window request source hpasses hcontract response hstatus
    obtain ⟨next, hexchange⟩ := exists_exchange_of_passes hpasses hstatus
    have hresponse : response = ((Framework.standard.annotated settings request
        ⟨outcomeOf (Inquiry.answerFunctionDiagram source id).answer,
          (Inquiry.answerFunctionDiagram source id).records, next⟩).result).response := by
      change (exchange settings rate window request).result = _
      rw [hexchange, Framework.concluded_of_title (Framework.title_standard request)]
      rfl
    have hselection : response.status =
        selectionStatus (selectsWhole source id) (contract.select id) := by
      rw [hresponse, Outcome.status_response, Framework.status_annotated,
        status_answerFunctionDiagram hcontract]
    refine ⟨hselection, by rw [hselection, selectionStatus_eq_notFound_iff], fun hread => ?_⟩
    have hrefused := outcomeOf_answerFunctionDiagram hcontract
      (notFound_iff_not_isMisread.mpr hread)
    simp only [hresponse, hrefused]
    rfl

/-- A contract with one function, so with the one node `function-0`. -/
def singleFunction : Contract where
  name := "Vault"
  functions := [{ name := "f" }]

/-- Two identities that no node has, and that are not refused: one selects the function after
all, and the request for the other crashes. -/
theorem not_refused_beyond_nodes :
    let nines := List.replicate 4301 '9'
    ("function-00" ∉ nodeIds singleFunction ∧ isFunctionNode "function-00" = true ∧
      singleFunction.select "function-00" = .ok { name := "f" }) ∧
    (spelling nines ∉ nodeIds singleFunction ∧
      singleFunction.select (spelling nines) = .error (.numeralTooLong nines.length)) ∧
    ¬ ∀ id, id ∉ nodeIds singleFunction → singleFunction.select id = .error (.notFound id) := by
  intro nines
  have hdigits : ∀ c ∈ nines, (Text.digitValue? c).isSome = true := by
    intro c hc
    rw [List.eq_of_mem_replicate hc]
    decide +kernel
  have hlong : Numeral.digitLimit < nines.length := by
    rw [List.length_replicate]
    decide
  have hcount : singleFunction.functions.length < 10 ^ Numeral.digitLimit :=
    Nat.one_lt_pow (by decide) (by decide)
  have hselect : singleFunction.select (spelling nines) = .error (.numeralTooLong nines.length) :=
    select_spelling_of_long hdigits hlong
  have hnode := not_mem_nodeIds_of_tooLong hselect hcount
  have hshort : "function-00" ∉ nodeIds singleFunction := by decide +kernel
  have halias : singleFunction.select "function-00" = .ok { name := "f" } := by decide +kernel
  refine ⟨⟨hshort, by decide +kernel, halias⟩, ⟨hnode, hselect⟩, fun hrefused => ?_⟩
  have hrefusal := hrefused "function-00" hshort
  rw [halias] at hrefusal
  cases hrefusal

end ContractAtlas.Service
