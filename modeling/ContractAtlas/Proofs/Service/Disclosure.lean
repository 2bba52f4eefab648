import ContractAtlas.Proofs.Analysis
import ContractAtlas.Proofs.Service.Passage
import ContractAtlas.Proofs.Text.Quoted

/-!
# What the log tells about a refused source

A source that is no contract leaves three records: how long it is, why it is refused, and
that its request was answered.  The second of them shows the details of the refusal, to
which a summary of the source belongs.  The summary is quoted in such a way that it can be
read back, so the records of two refused sources differ exactly where their summaries do
(`records_eq_iff_summarize_eq`).  Beyond its length and its summary nothing of a refused
source comes into the log.
-/

namespace ContractAtlas.Service

variable {settings : Settings} {limit : RateLimit} {window : RateWindow} {request : Request}
  {source : String} {error : FormatError}

/-! ## The record of a refusal -/

/-- The details of a refused text up to its summary. -/
def detailsOpening (reason : String) : List Char :=
  '{' :: Text.quote (Text.ofString "reason") ++ ':' :: ' ' ::
    Text.quote (Text.ofString reason) ++ ',' :: ' ' ::
    Text.quote (Text.ofString "input_summary") ++ [':', ' ']

theorem display_details (error : FormatError) :
    (Refusal.format error).details.display = String.ofList (detailsOpening error.fault.reason ++
      (Text.quote (Text.ofString error.summary) ++ ['}'])) := by
  simp only [Refusal.details, Json.record, Json.ofString, Json.display, Json.literal,
    Json.literalFields, detailsOpening, List.map_cons, List.map_nil, List.cons_append,
    List.append_assoc, List.nil_append]

/-- The record of a refusal tells the summary of the text, quoted. -/
theorem Inquiry.refusalRecord_eq_iff {error other : FormatError}
    (hreason : error.fault.reason = other.fault.reason) :
    refusalRecord (.format error) = refusalRecord (.format other) ↔
      error.summary = other.summary := by
  have hmessage : (Refusal.format error).message = (Refusal.format other).message :=
    congrArg ("Invalid contract format: " ++ ·) hreason
  constructor
  · intro hrecord
    have htext := congrArg (fun record => record.message.toList) hrecord
    simp only [refusalRecord, Refusal.code, hmessage, display_details, hreason,
      String.toList_append, String.toList_ofList] at htext
    have hquoted := List.append_cancel_left (List.append_cancel_left htext)
    exact Text.ofString_injective (Text.quote_append_inj hquoted).1
  · intro hsummary
    have hdetails : (Refusal.format error).details = (Refusal.format other).details := by
      simp only [Refusal.details, hreason, hsummary]
    simp only [refusalRecord, Refusal.code, hmessage, hdetails]

/-! ## Refused sources -/

/-- A request for the analysis of a text that is no contract. -/
structure IsRefused (settings : Settings) (request : Request) (source : String)
    (error : FormatError) : Prop where
  passes : Passes settings request .analyse (.analysis source)
  refused : Contract.ofText source = .error error

theorem extract_of_ofText_eq_error (h : Contract.ofText source = .error error) :
    Extraction.ofText source = .error error := by
  rw [Contract.ofText] at h
  cases hextract : Extraction.ofText source with
  | ok extraction =>
      rw [hextract] at h
      cases h
  | error fault =>
      rw [hextract] at h
      cases h
      rfl

/-- The records that a refused source leaves. -/
theorem records_exchange_of_isRefused (h : IsRefused settings request source error)
    (hstatus : (exchange settings limit window request).result.status ≠ 429) :
    (exchange settings limit window request).records =
      [Inquiry.analysisRecord source, Inquiry.refusalRecord (.format error),
        accessRecord request.title 422] := by
  have hjournal := Journal.analysis_of_error (extract_of_ofText_eq_error h.refused)
  rw [records_exchange_of_passes h.passes hstatus, Inquiry.answer, Inquiry.answerAnalysis,
    h.refused, hjournal]
  rfl

/-- Two requests for an analysis, alike but for their sources, which have one length and are
refused for one reason, leave the same records exactly if the sources have the same
summary: everything else about them is kept from the log, and the summary is not. -/
theorem records_eq_iff_summarize_eq {first second : Request} {other : String}
    {otherError : FormatError} {otherWindow : RateWindow}
    (hfirst : IsRefused settings first source error)
    (hsecond : IsRefused settings second other otherError) (hpath : first.path = second.path)
    (hlength : source.length = other.length)
    (hreason : error.fault.reason = otherError.fault.reason)
    (hstatus : (exchange settings limit window first).result.status ≠ 429)
    (hstatus' : (exchange settings limit otherWindow second).result.status ≠ 429) :
    (exchange settings limit window first).records =
        (exchange settings limit otherWindow second).records ↔
      Text.summarize Text.summaryLimit source.toList =
        Text.summarize Text.summaryLimit other.toList := by
  have hmethod : first.method = second.method := by
    rw [hfirst.passes.method_eq, hsecond.passes.method_eq]
  have haccess : accessRecord first.title 422 = accessRecord second.title 422 := by
    simp only [Request.title, Request.titleWith, Request.loggedPath, hmethod, hpath]
  have hanalysis : Inquiry.analysisRecord source = Inquiry.analysisRecord other := by
    simp only [Inquiry.analysisRecord, hlength]
  obtain ⟨fault, rfl⟩ :=
    Extraction.exists_fault_of_ofText (extract_of_ofText_eq_error hfirst.refused)
  obtain ⟨otherFault, rfl⟩ :=
    Extraction.exists_fault_of_ofText (extract_of_ofText_eq_error hsecond.refused)
  rw [records_exchange_of_isRefused hfirst hstatus, records_exchange_of_isRefused hsecond hstatus',
    haccess, hanalysis]
  calc
    _ ↔ Inquiry.refusalRecord (.format (.ofText fault source)) =
        Inquiry.refusalRecord (.format (.ofText otherFault other)) := by
      simp only [List.cons.injEq, true_and, and_true]
    _ ↔ _ := Inquiry.refusalRecord_eq_iff hreason
    _ ↔ _ := by simp only [FormatError.ofText, String.ofList_inj]

/-- A request for the analysis of a number, which is no contract. -/
def numberRequest (number : String) : Request :=
  submission "/api/v1/analyze" ("\x7b\"source\": \"" ++ number ++ "\"\x7d")

theorem isRefused_numberRequest (number : String) (h : number ∈ ["1971", "2024"]) :
    IsRefused {} (numberRequest number) number (.ofText .notInterface number) := by
  simp only [List.mem_cons, List.not_mem_nil, or_false] at h
  constructor
  case passes =>
    rcases h with rfl | rfl <;>
      exact .of_toOption (by decide +kernel) (by decide +kernel) (by decide) (by decide +kernel)
  case refused =>
    rcases h with rfl | rfl <;> decide +kernel

theorem status_numberRequest (number : String) (h : number ∈ ["1971", "2024"]) :
    (exchange {} .standard {} (numberRequest number)).result.status ≠ 429 := by
  simp only [List.mem_cons, List.not_mem_nil, or_false] at h
  rcases h with rfl | rfl <;> decide +kernel

theorem records_eq_iff_summarize_eq_numberRequest :
    (exchange {} .standard {} (numberRequest "1971")).records ≠
      (exchange {} .standard {} (numberRequest "2024")).records := by
  rw [ne_eq, records_eq_iff_summarize_eq (isRefused_numberRequest "1971" (by decide))
    (isRefused_numberRequest "2024" (by decide)) rfl rfl rfl
    (status_numberRequest "1971" (by decide)) (status_numberRequest "2024" (by decide))]
  decide

/-- The log does tell refused sources apart, even if they have one length and are refused
for one reason. -/
theorem not_silent_about_sources :
    ¬ ∀ (first second : Request) (source other : String) (error otherError : FormatError),
      IsRefused {} first source error → IsRefused {} second other otherError →
      first = { second with body := first.body } → source.length = other.length →
      error.fault.reason = otherError.fault.reason →
      (exchange {} .standard {} first).records = (exchange {} .standard {} second).records := by
  intro hsilent
  have hfirst := isRefused_numberRequest "1971" (by decide)
  have hsecond := isRefused_numberRequest "2024" (by decide)
  have hreason : (FormatError.ofText .notInterface "1971").fault.reason =
      (FormatError.ofText .notInterface "2024").fault.reason := rfl
  have hrecords := hsilent _ _ _ _ _ _ hfirst hsecond rfl rfl hreason
  rw [records_exchange_of_isRefused hfirst (status_numberRequest "1971" (by decide)),
    records_exchange_of_isRefused hsecond (status_numberRequest "2024" (by decide))] at hrecords
  simp only [List.cons.injEq] at hrecords
  have hsummary := (Inquiry.refusalRecord_eq_iff hreason).mp hrecords.2.1
  revert hsummary
  decide

end ContractAtlas.Service
