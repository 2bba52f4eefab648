import ContractAtlas.Proofs.Service.Passage
import Mathlib.Data.List.Forall2

/-!
# The access log

Whatever is answered behind the access log leaves one record in it and is timed: a request
for permission, a redirection, a rejection, a refusal, a request beyond the rate limit, an
answer (`Recorded.logged`).  Two kinds of requests pass it by.  The size limit lies in front
of it and turns requests away by itself, and an error that nobody has foreseen leaves it on
the way out.  So the access log of a sequence of requests has one record for each timed
response, in the order of the requests, and a response is timed unless it tells that the
request was too large or that something crashed (`logsAccess_exchanges`).  In particular the
weight that is kept for the errors of the service is never given to a record.
-/

namespace ContractAtlas

open Log

/-- The logger of the access log. -/
def Service.accessLogger : String := "contractviz.request"

/-- The records of the access log among others. -/
def Service.accessRecords (records : List Record) : List Record :=
  records.filter (·.logger = accessLogger)

namespace Service

@[simp]
theorem accessRecords_nil : accessRecords [] = [] := rfl

@[simp]
theorem accessRecords_cons (record : Record) (records : List Record) :
    accessRecords (record :: records) =
      if record.logger = accessLogger then record :: accessRecords records
      else accessRecords records := by
  simp [accessRecords, List.filter_cons]

@[simp]
theorem accessRecords_append (records more : List Record) :
    accessRecords (records ++ more) = accessRecords records ++ accessRecords more :=
  List.filter_append ..

theorem accessRecords_flatMap {α : Type} (items : List α) (records : α → List Record) :
    accessRecords (items.flatMap records) =
      items.flatMap fun item => accessRecords (records item) :=
  List.filter_flatMap ..

theorem accessRecords_flatMap_eq_nil {α : Type} {items : List α} {records : α → List Record}
    (hrecords : ∀ item ∈ items, accessRecords (records item) = []) :
    accessRecords (items.flatMap records) = [] := by
  rw [accessRecords_flatMap, List.flatMap_eq_nil_iff]
  exact hrecords

end Service

/-! ## The journal of an analysis -/

namespace Journal

open Service

@[simp]
theorem accessRecords_skippedEntries (entries : List Json) :
    accessRecords (skippedEntries entries) = [] := by
  rw [accessRecords, List.filter_eq_nil_iff]
  intro record hrecord
  obtain ⟨⟨outcome, position⟩, -, hskipped⟩ := List.mem_filterMap.mp hrecord
  cases outcome <;> cases hskipped <;> simp [extractionLogger, accessLogger]

@[simp]
theorem accessRecords_ofEntries (entries : List Json) (extraction : Extraction) :
    accessRecords (ofEntries entries extraction) = [] := by
  simp [ofEntries, entriesRead, extractionLogger, accessLogger]

@[simp]
theorem accessRecords_ofText (text : String) (extraction : Extraction) :
    accessRecords (ofText text extraction) = [] := by
  rw [ofText]
  split <;> simp [declarationsRead, extractionLogger, accessLogger]

@[simp]
theorem accessRecords_ofDerivation (extraction : Extraction) :
    accessRecords (ofDerivation extraction) = [] := by
  rw [ofDerivation, findingsMade]
  split <;> simp [referencesResolved, referencesLogger, findingsLogger, accessLogger]

@[simp]
theorem accessRecords_analysis (text : String) : accessRecords (analysis text) = [] := by
  rw [analysis]
  split <;> simp [contractAnalysed, analysisLogger, accessLogger]

@[simp]
theorem accessRecords_ofBatch (inputs : List (String × String)) :
    accessRecords (ofBatch inputs) = [] := by
  have hentry : ∀ name source, accessRecords (ofBatchEntry name source) = [] := by
    intro name source
    rw [ofBatchEntry]
    split <;> simp [entryFailed, analysisLogger, accessLogger]
  rw [ofBatch, accessRecords_append, accessRecords_flatMap_eq_nil fun entry _ => hentry _ _]
  split <;> simp [batchFinished, analysisLogger, accessLogger]

end Journal

namespace Service

variable {settings : Settings} {limit : RateLimit} {window : RateWindow} {request : Request}

/-! ## Behind the access log -/

@[simp]
theorem accessRecords_telling (strings : List Text) (records : List Record) (answer : Json) :
    accessRecords (Inquiry.telling strings records answer).records = accessRecords records := by
  rw [Inquiry.telling]
  split <;> rfl

@[simp]
theorem accessRecords_refused (records : List Record) (refusal : Refusal) :
    accessRecords (Inquiry.refused records refusal).records = accessRecords records := by
  simp [Inquiry.refused, Inquiry.refusalRecord, accessLogger]

/-- An inquiry leaves nothing in the access log. -/
theorem accessRecords_answer (settings : Settings) (inquiry : Inquiry) :
    accessRecords (inquiry.answer settings).records = [] := by
  cases inquiry with
  | health => rfl
  | analysis source =>
      rw [Inquiry.answer, Inquiry.answerAnalysis]
      split <;> simp [Inquiry.analysisRecord, Inquiry.analysisLogger, accessLogger]
  | batch inputs =>
      simp only [Inquiry.answer, Inquiry.answerBatch]
      split
      · simp
      · split <;> simp [Inquiry.batchRecord, Inquiry.analysisLogger, accessLogger]
  | functionDiagram source node =>
      rw [Inquiry.answer, Inquiry.answerFunctionDiagram]
      split
      · simp
      · split <;> simp [Inquiry.functionRecord, Inquiry.diagramLogger, accessLogger]
  | diagram view source =>
      rw [Inquiry.answer, Inquiry.answerDiagram]
      split <;> simp [Inquiry.diagramRecord, Inquiry.diagramLogger, accessLogger]

/-- A response that comes through the access log: it is timed, and its status is neither an
error of the service nor that of a request that is too large. -/
structure Response.ComesThrough (response : Response) : Prop where
  timed : response.timed = true
  status_lt : response.status < 500
  status_ne : response.status ≠ 413

/-- What comes of a request behind the access log. -/
structure Behind (turn : Turn Outcome) : Prop where
  silent : accessRecords turn.records = []
  through : ∀ response, turn.result = .responded response → response.ComesThrough

theorem behind_silent {response : Response} (hresponse : response.ComesThrough) :
    Behind (Service.silent window response) where
  silent := rfl
  through := by
    rintro _ ⟨⟩
    exact hresponse

theorem comesThrough_of_mem {response : Response} {statuses : List Nat}
    (hresponse : response.timed = true ∧ response.status ∈ statuses)
    (hstatuses : ∀ status ∈ statuses, status < 500 ∧ status ≠ 413) : response.ComesThrough := by
  obtain ⟨htimed, hstatus⟩ := hresponse
  obtain ⟨hlt, hne⟩ := hstatuses response.status hstatus
  exact ⟨htimed, hlt, hne⟩

theorem comesThrough_json {status : Nat} (hstatus : status < 500) (hne : status ≠ 413)
    (value : Json) : (Response.json status value).ComesThrough :=
  ⟨rfl, hstatus, hne⟩

theorem comesThrough_outcomeOf {answer : Except Failure Json} {response : Response}
    (houtcome : outcomeOf answer = .responded response) : response.ComesThrough := by
  match answer with
  | .ok _ =>
      cases houtcome
      exact comesThrough_json (by decide) (by decide) _
  | .error (.refused refusal) =>
      cases houtcome
      refine comesThrough_json ?_ ?_ _ <;> cases refusal <;> simp [Refusal.status]
  | .error (.unexpected _) => cases houtcome

theorem behind_inquire (settings : Settings) (limit : RateLimit) (window : RateWindow)
    (path : String) (inquiry : Inquiry) : Behind (inquire settings limit window path inquiry) := by
  have hanswered : ∀ window, Behind ⟨outcomeOf (inquiry.answer settings).answer,
      (inquiry.answer settings).records, window⟩ := fun window =>
    ⟨accessRecords_answer settings inquiry, fun _ => comesThrough_outcomeOf⟩
  rw [inquire]
  split
  · split
    · exact hanswered _
    · refine ⟨by simp [RateLimit.record, accessLogger], ?_⟩
      rintro _ ⟨⟩
      exact comesThrough_json (by decide) (by decide) _
  · exact hanswered _

theorem behind_dispatch (settings : Settings) (limit : RateLimit) (window : RateWindow)
    (request : Request) : Behind (Framework.standard.dispatch settings limit window request) := by
  rw [Framework.dispatch]
  split
  next response hroute =>
    exact behind_silent (comesThrough_of_mem (timed_and_status_standardRoute hroute) (by decide))
  next =>
    split
    next rejection _ =>
      refine ⟨rfl, fun response hresponse => ?_⟩
      cases rejection <;> cases hresponse <;>
        exact comesThrough_json (by decide) (by decide) _
    next inquiry _ => exact behind_inquire settings limit window request.path inquiry

theorem behind_annotated {turn : Turn Outcome} (hbehind : Behind turn) :
    Behind (Framework.standard.annotated settings request turn) where
  silent := hbehind.silent
  through := by
    intro response hresponse
    simp only [Framework.annotated] at hresponse
    split at hresponse
    next inner hinner =>
      cases hresponse
      obtain ⟨htimed, hlt, hne⟩ := hbehind.through inner hinner
      exact ⟨htimed, hlt, hne⟩
    next => cases hresponse

theorem behind_behindLog (settings : Settings) (limit : RateLimit) (window : RateWindow)
    (request : Request) :
    Behind (Framework.standard.behindLog settings limit window request) := by
  rw [Framework.behindLog]
  split
  next response hpreflight =>
    exact behind_silent (comesThrough_of_mem (timed_and_status_preflight hpreflight) (by decide))
  next => exact behind_annotated (behind_dispatch settings limit window request)

/-! ## One request -/

/-- A request that announces more than the service reads. -/
def IsOversize (settings : Settings) (request : Request) : Prop :=
  settings.maxInputBytes < SizeLimit.announced (request.header? "content-length")

/-- How a request is recorded: by the size limit, by the access log, or as a crash. -/
inductive Recorded (settings : Settings) (request : Request) : Exchange → Prop
  | oversize {length : Int} {window : RateWindow} (hoversize : IsOversize settings request) :
      Recorded settings request
        ⟨SizeLimit.response settings.maxInputBytes length,
          [SizeLimit.record request.title settings.maxInputBytes length], window⟩
  | logged {response : Response} {records : List Record} {window : RateWindow}
      (hfits : ¬ IsOversize settings request) (hsilent : accessRecords records = [])
      (hthrough : response.ComesThrough) :
      Recorded settings request
        ⟨response, records ++ [accessRecord request.title response.status], window⟩
  | crashed {text : String} {records : List Record} {window : RateWindow}
      (hfits : ¬ IsOversize settings request) (hsilent : accessRecords records = []) :
      Recorded settings request (crash text records window)

theorem recorded_exchange (settings : Settings) (limit : RateLimit) (window : RateWindow)
    (request : Request) :
    Recorded settings request (exchange settings limit window request) := by
  rw [exchange, Framework.exchange]
  split
  next length hexcess =>
    obtain ⟨rfl, hoversize⟩ := SizeLimit.excess?_eq_some_iff.mp hexcess
    exact .oversize hoversize
  next hexcess =>
    have hfits : ¬ IsOversize settings request := fun hoversize => by
      rw [SizeLimit.excess?_eq_some_iff.mpr ⟨rfl, hoversize⟩] at hexcess
      cases hexcess
    have hbehind := behind_behindLog settings limit window request
    rw [Framework.behindLimit, Framework.concluded, Framework.title_standard]
    split
    next response title hresponse htitle =>
      cases htitle
      exact .logged hfits hbehind.silent (hbehind.through _ hresponse)
    next htitle => cases htitle
    next => exact .crashed hfits hbehind.silent

namespace Recorded

variable {exchange : Exchange} (hrecorded : Recorded settings request exchange)

include hrecorded

theorem accessRecords_eq : accessRecords exchange.records =
    if exchange.result.timed then [accessRecord request.title exchange.result.status] else [] := by
  cases hrecorded with
  | oversize => simp [SizeLimit.record, SizeLimit.response, accessLogger]
  | logged _ hsilent hthrough =>
      simp [hsilent, hthrough.timed, accessRecord, accessLogger]
  | crashed _ hsilent => simp [crash, hsilent, crashRecord, crashResponse, accessLogger]

theorem timed_iff : exchange.result.timed = true ↔
    exchange.result.status < 500 ∧ exchange.result.status ≠ 413 := by
  cases hrecorded with
  | oversize => simp [SizeLimit.response, Response.json]
  | logged _ _ hthrough => simp [hthrough.timed, hthrough.status_lt, hthrough.status_ne]
  | crashed => simp [crash, crashResponse, Response.json]

theorem status_eq_iff : exchange.result.status = 413 ↔ IsOversize settings request := by
  cases hrecorded with
  | oversize hoversize => simp [hoversize, SizeLimit.response, Response.json]
  | logged hfits _ hthrough => simp [hfits, hthrough.status_ne]
  | crashed hfits => simp [crash, hfits, crashResponse, Response.json]

end Recorded

/-! ## Sequences of requests -/

theorem forall₂_recorded (settings : Settings) (limit : RateLimit) (window : RateWindow)
    (requests : List Request) :
    List.Forall₂ (Recorded settings) requests (exchanges settings limit window requests) := by
  induction requests generalizing window with
  | nil => exact .nil
  | cons request rest ih =>
      exact .cons (recorded_exchange settings limit window request) (ih _)

/-- The access log of a sequence of requests, each with what became of it. -/
structure LogsAccess (settings : Settings) (requests : List Request) (run : List Exchange) :
    Prop where
  records_eq : accessRecords (run.flatMap (·.records)) =
    ((requests.zip run).filter fun (_, exchange) => exchange.result.timed).map
      fun (request, exchange) => accessRecord request.title exchange.result.status
  timed_iff : List.Forall₂ (fun _ exchange => exchange.result.timed = true ↔
    exchange.result.status < 500 ∧ exchange.result.status ≠ 413) requests run
  oversize_iff : List.Forall₂ (fun request exchange => exchange.result.status = 413 ↔
    IsOversize settings request) requests run
  level_eq : ∀ record ∈ accessRecords (run.flatMap (·.records)), record.level = .info

theorem LogsAccess.of_forall₂ {requests : List Request} {run : List Exchange}
    (hrun : List.Forall₂ (Recorded settings) requests run) : LogsAccess settings requests run where
  records_eq := by
    induction hrun with
    | nil => rfl
    | @cons request exchange rest others hrecorded _ ih =>
        rw [List.flatMap_cons, accessRecords_append, hrecorded.accessRecords_eq, ih,
          List.zip_cons_cons, List.filter_cons]
        split <;> rfl
  timed_iff := hrun.imp fun _ _ => Recorded.timed_iff
  oversize_iff := hrun.imp fun _ _ => Recorded.status_eq_iff
  level_eq := by
    induction hrun with
    | nil => simp
    | @cons request exchange rest others hrecorded _ ih =>
        rw [List.flatMap_cons, accessRecords_append, hrecorded.accessRecords_eq,
          List.forall_mem_append]
        refine ⟨?_, ih⟩
        split
        next htimed => simp [accessRecord, Nat.not_le.mpr (hrecorded.timed_iff.mp htimed).1]
        next => simp

/-- Of every sequence of requests the access log has one record for each timed response, in
their order, with the status that the client got; the responses that are not timed are those
to requests that are too large and those that tell of a crash. -/
theorem logsAccess_exchanges (settings : Settings) (limit : RateLimit) (window : RateWindow)
    (requests : List Request) :
    LogsAccess settings requests (exchanges settings limit window requests) :=
  .of_forall₂ (forall₂_recorded settings limit window requests)

/-- A request for the health of the service that announces a body of some length. -/
def healthRequest (length : String) : Request :=
  { method := "GET", path := "/health", headers := [("content-length", length)] }

/-- Not every request is in the access log, and not every response is timed: a request that
is too large passes both by. -/
theorem not_every_request_logged :
    ¬ ∀ requests : List Request,
      let run := exchanges {} .standard {} requests
      accessRecords (run.flatMap (·.records)) =
          (requests.zip run).map (fun (request, exchange) =>
            accessRecord request.title exchange.result.status) ∧
        ∀ exchange ∈ run, exchange.result.timed = true := by
  intro hlogged
  have hlength := congrArg List.length (hlogged [healthRequest "200001"]).1
  revert hlength
  decide +kernel

end Service

end ContractAtlas
