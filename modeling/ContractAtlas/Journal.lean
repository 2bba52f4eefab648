import ContractAtlas.Log.Record
import ContractAtlas.Refusal

/-!
# The journal of an analysis

What an analysis reports to the log, as a value: the records that belong to a text or to
a batch, in their order.  Records tell counts and names but nothing of the text itself.
-/

namespace ContractAtlas.Journal

open ContractAtlas.Log

/-- The loggers of the parts of an analysis. -/
def extractionLogger : String := "contractviz.services.pattern_extractor"
def referencesLogger : String := "contractviz.services.cross_reference"
def findingsLogger : String := "contractviz.services.security_scanner"
def analysisLogger : String := "contractviz.services.contract_analyzer"

/-- The record about an entry of an interface list that is passed over. -/
def skipped? (outcome : Interface.Outcome) (position : Nat) : Option Record :=
  match outcome with
  | .unrelated => some {
      level := .debug
      logger := extractionLogger
      message := s!"Skipping interface entry {position}: not a function or event" }
  | .malformed fault => some {
      level := .debug
      logger := extractionLogger
      message := s!"Skipping malformed interface entry {position}: " ++ fault.message }
  | .function _ | .event _ => none

/-- The records about the entries that are passed over. -/
def skippedEntries (entries : List Json) : List Record :=
  (Interface.outcomes entries).zipIdx.filterMap fun (outcome, position) =>
    skipped? outcome position

def entriesRead (entries : List Json) (extraction : Extraction) : Record :=
  { level := .debug
    logger := extractionLogger
    message := s!"Interface extraction  entries={entries.length}" ++
      s!"  functions={extraction.functions.length}  events={extraction.events.length}" }

def declarationsRead (extraction : Extraction) : Record :=
  { level := .debug
    logger := extractionLogger
    message := s!"Source extraction  contract={extraction.contractName}" ++
      s!"  functions={extraction.functions.length}  events={extraction.events.length}" ++
      s!"  state={extraction.stateVariables.length}  modifiers={extraction.modifiers.length}" }

/-- The records of the extraction from an interface list. -/
def ofEntries (entries : List Json) (extraction : Extraction) : List Record :=
  skippedEntries entries ++ [entriesRead entries extraction]

/-- The records of the extraction from a text.  In an interface list they tell of its
entries, in a source of its declarations. -/
def ofText (text : String) (extraction : Extraction) : List Record :=
  match Probe.ofText text with
  | .interface entries _ => ofEntries entries extraction
  | _ => [declarationsRead extraction]

/-- The number of names in several lists. -/
def total (lists : List (List String)) : Nat :=
  lists.flatten.length

def referencesResolved (references : References) : Record :=
  { level := .debug
    logger := referencesLogger
    message := s!"Resolved references  call_edges={total references.calls}" ++
      s!"  writes={total references.writtenBy}  emissions={total references.emittedBy}" }

/-- The record about findings, if there are any. -/
def findingsMade (count : Nat) : List Record :=
  if count = 0 then []
  else [{
    level := .debug
    logger := findingsLogger
    message := s!"Security scan produced {count} finding(s)" }]

/-- The records of what is derived from an extraction. -/
def ofDerivation (extraction : Extraction) : List Record :=
  referencesResolved extraction.references ::
    findingsMade (extraction.scan Rule.catalog).length

def contractAnalysed (extraction : Extraction) : Record :=
  { level := .info
    logger := analysisLogger
    message := "Analyzed contract " ++ extraction.contractName
    fields := [
      ("mode", .ofString extraction.mode.name),
      ("functions", .int extraction.functions.length),
      ("events", .int extraction.events.length),
      ("state_variables", .int extraction.stateVariables.length),
      ("findings", .int (extraction.scan Rule.catalog).length)] }

/-- The records of the analysis of a text; a text that is no contract leaves none. -/
def analysis (text : String) : List Record :=
  match Extraction.ofText text with
  | .ok extraction =>
    ofText text extraction ++ ofDerivation extraction ++ [contractAnalysed extraction]
  | .error _ => []

/-- The records of the analysis of a text that is known to be a source. -/
def sourceAnalysis (text : String) : List Record :=
  match Extraction.ofSource text with
  | .ok extraction => declarationsRead extraction :: ofDerivation extraction
  | .error _ => []

/-- The records of the analysis of an interface list that need not come from a text. -/
def interfaceAnalysis (entries : List Json) : List Record :=
  match Extraction.ofList entries with
  | .ok extraction => ofEntries entries extraction ++ ofDerivation extraction
  | .error _ => []

def entryFailed (name : String) (error : FormatError) : Record :=
  { level := .warning
    logger := analysisLogger
    message := s!"Batch entry {name} failed"
    fields := [("error_code", .ofString (Refusal.format error).code)] }

/-- The records of one text of a batch. -/
def ofBatchEntry (name source : String) : List Record :=
  analysis source ++ match Batch.outcome name source with
    | .analysed _ => []
    | .failed name error => [entryFailed name error]

def batchFinished (result : BatchResult) : Record :=
  { level := .info
    logger := analysisLogger
    message := "Batch analysis finished"
    fields := [
      ("analyzed", .int result.contracts.length),
      ("failed", .int result.errors.length)] }

/-- The records of the analysis of a batch. -/
def ofBatch (inputs : List (String × String)) : List Record :=
  (Batch.pending inputs).flatMap (fun (name, source) => ofBatchEntry name source) ++
    match Batch.analyse inputs with
    | .ok result => [batchFinished result]
    | .error _ => []

theorem analysis_of_error {text : String} {error : FormatError}
    (h : Extraction.ofText text = .error error) : analysis text = [] := by
  simp [analysis, h]

end ContractAtlas.Journal
