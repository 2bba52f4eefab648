import ContractAtlas.Proofs.Service.Passage

/-!
# Rate limiting over sequences of requests

Of the requests that came before, the service remembers for every path how many of them
came as far as the limiter, and nothing else (`hits_after`).  A request adds one to the
count of its path if it comes to the limiter, whatever its answer is, and leaves all counts
as they are if it does not (`hits_exchange`).  So a request is turned away exactly if it
comes to the limiter and its path has been asked for as often as the limit allows, and a
request that is not turned away is answered as if it were the first.

Nothing is known here of the framework but what is documented of it.  A request is logged under
the path in its address, and if the address has none, the exchange ends in a crash whatever
the answer was; but the request is counted like others.
-/

namespace ContractAtlas.Service.Framework

variable {framework : Framework} {settings : Settings} {limit : RateLimit} {window : RateWindow}
  {request : Request} {requests : List Request}

/-- A request whose address has a path. -/
def Addresses (framework : Framework) (request : Request) : Prop :=
  ∃ path, framework.addressPath request = .ok path

theorem Addresses.title_eq (haddresses : framework.Addresses request) :
    ∃ title, framework.title request = .ok title := by
  obtain ⟨path, hpath⟩ := haddresses
  exact ⟨request.titleWith path, by rw [title, hpath]; rfl⟩

/-! ## One request -/

/-- The exchange of a request that comes to the limiter and is turned away. -/
def turnedAway (framework : Framework) (settings : Settings) (limit : RateLimit)
    (request : Request) (window : RateWindow) : Exchange :=
  framework.concluded request (framework.annotated settings request
    ⟨.responded limit.response, [limit.record], window⟩)

/-- What becomes of a request that comes to the limiter. -/
theorem exchange_of_reachesLimiter (hdocumented : framework.Documented)
    (hlimited : settings.rateLimited = true)
    (h : framework.reachesLimiter settings request = true) :
    ∃ response records, response.status ≠ 429 ∧ ∀ limit window,
      framework.exchange settings limit window request =
        if window.admits limit request.path then
          ⟨response, records, window.hit request.path⟩
        else framework.turnedAway settings limit request (window.hit request.path) := by
  obtain ⟨endpoint, inquiry, hpasses⟩ := reachesLimiter_iff.mp h
  have hinquiry : inquiry.isLimited = true :=
    isLimited_of_ofPayload hpasses.not_health hpasses.asks
  let turn := framework.annotated settings request
    ⟨outcomeOf (inquiry.answer settings).answer, (inquiry.answer settings).records, {}⟩
  have hstatus : turn.result.status ≠ 429 := by
    rw [status_annotated]
    exact status_outcomeOf_ne_limited _
  refine ⟨(framework.concluded request turn).result, (framework.concluded request turn).records,
    status_concluded_ne_limited hstatus, fun limit window => ?_⟩
  rw [exchange_of_passes hdocumented hpasses]
  simp only [inquire, hlimited, hinquiry, Bool.and_true, if_true]
  split
  next => exact framework.concluded_with request turn (window.hit request.path)
  next => rfl

/-- Whether a request comes to the limiter and asks for a path. -/
def counts (framework : Framework) (settings : Settings) (path : String) (request : Request) :
    Bool :=
  request.path == path && framework.reachesLimiter settings request

/-- One request adds one to the count of its path, if it comes to the limiter. -/
theorem hits_exchange (hdocumented : framework.Documented) (hlimited : settings.rateLimited = true)
    (limit : RateLimit) (window : RateWindow) (request : Request) (path : String) :
    (framework.exchange settings limit window request).window.hits path =
      window.hits path + if framework.counts settings path request then 1 else 0 := by
  cases hreaches : framework.reachesLimiter settings request with
  | false =>
      obtain ⟨response, records, -, hexchange⟩ :=
        exchange_of_not_reachesLimiter hdocumented hreaches
      simp [hexchange, counts, hreaches]
  | true =>
      obtain ⟨response, records, -, hexchange⟩ :=
        exchange_of_reachesLimiter hdocumented hlimited hreaches
      have hwindow : (framework.exchange settings limit window request).window =
          window.hit request.path := by
        rw [hexchange]
        split
        next => rfl
        next => exact window_concluded ..
      rw [hwindow]
      by_cases hpath : request.path = path
      · subst hpath
        simp [counts, hreaches]
      · simp [counts, hpath, RateWindow.hits_hit_of_ne (Ne.symm hpath)]

/-- A request whose address has a path is turned away exactly if it comes to the limiter and
the limit of its path has been reached. -/
theorem status_exchange_eq_iff (hdocumented : framework.Documented)
    (hlimited : settings.rateLimited = true) (haddresses : framework.Addresses request) :
    (framework.exchange settings limit window request).result.status = 429 ↔
      framework.reachesLimiter settings request = true ∧
        limit.most ≤ window.hits request.path := by
  cases hreaches : framework.reachesLimiter settings request with
  | false =>
      obtain ⟨response, records, hstatus, hexchange⟩ :=
        exchange_of_not_reachesLimiter hdocumented hreaches
      simp [hexchange, hstatus]
  | true =>
      obtain ⟨response, records, hstatus, hexchange⟩ :=
        exchange_of_reachesLimiter hdocumented hlimited hreaches
      obtain ⟨title, htitle⟩ := haddresses.title_eq
      have haway : ∀ window,
          (framework.turnedAway settings limit request window).result.status = 429 := by
        intro window
        rw [turnedAway, concluded_of_title htitle, Outcome.status_response, status_annotated]
        rfl
      rw [hexchange]
      split
      next hadmits =>
        have hless : window.hits request.path < limit.most := by
          simpa [RateWindow.admits] using hadmits
        simp [hstatus, hless]
      next hadmits =>
        have hmost : limit.most ≤ window.hits request.path := by
          simpa [RateWindow.admits] using hadmits
        simp [hmost, haway]

/-- Without a path in the address, every exchange ends in a crash. -/
theorem result_exchange_of_error {text : String}
    (haddress : framework.addressPath request = .error text) :
    (framework.exchange settings limit window request).result = crashResponse := by
  have htitle : framework.title request = .error text := by
    rw [title, haddress]
    rfl
  rw [exchange]
  split
  · rw [htitle]
    rfl
  · exact result_concluded_of_error htitle

/-- Two windows make no difference to a request that neither of them turns away. -/
theorem result_exchange_eq (hdocumented : framework.Documented)
    (hlimited : settings.rateLimited = true) {other : RateWindow}
    (h : (framework.exchange settings limit window request).result.status ≠ 429)
    (hother : (framework.exchange settings limit other request).result.status ≠ 429) :
    (framework.exchange settings limit window request).result =
      (framework.exchange settings limit other request).result := by
  cases haddress : framework.addressPath request with
  | error text => rw [result_exchange_of_error haddress, result_exchange_of_error haddress]
  | ok path =>
      cases hreaches : framework.reachesLimiter settings request with
      | false =>
          obtain ⟨response, records, -, hexchange⟩ :=
            exchange_of_not_reachesLimiter hdocumented hreaches
          simp [hexchange]
      | true =>
          simp only [ne_eq, status_exchange_eq_iff hdocumented hlimited ⟨path, haddress⟩, hreaches,
            true_and, Nat.not_le] at h hother
          obtain ⟨response, records, -, hexchange⟩ :=
            exchange_of_reachesLimiter hdocumented hlimited hreaches
          simp [hexchange, RateWindow.admits, h, hother]

/-! ## Sequences of requests -/

/-- The window after several requests. -/
def after (framework : Framework) (settings : Settings) (limit : RateLimit) (window : RateWindow)
    (requests : List Request) : RateWindow :=
  requests.foldl
    (fun window request => (framework.exchange settings limit window request).window) window

/-- Every request of a sequence meets the window that the ones before it have left. -/
theorem getElem?_exchanges (framework : Framework) (settings : Settings) (limit : RateLimit)
    (window : RateWindow) (requests : List Request) (k : Nat) :
    (framework.exchanges settings limit window requests)[k]? = requests[k]?.map
      (framework.exchange settings limit
        (framework.after settings limit window (requests.take k))) := by
  induction requests generalizing window k with
  | nil => rfl
  | cons request rest ih =>
      cases k with
      | zero => rfl
      | succ k => simpa [exchanges, after] using ih _ k

/-- What a window holds of a path after several requests. -/
theorem hits_after (hdocumented : framework.Documented) (hlimited : settings.rateLimited = true)
    (limit : RateLimit) (window : RateWindow) (requests : List Request) (path : String) :
    (framework.after settings limit window requests).hits path =
      window.hits path + requests.countP (framework.counts settings path) := by
  induction requests generalizing window with
  | nil => rfl
  | cons request rest ih =>
      calc (framework.after settings limit window (request :: rest)).hits path
          = (framework.exchange settings limit window request).window.hits path +
              rest.countP (framework.counts settings path) := ih _
        _ = window.hits path + (request :: rest).countP (framework.counts settings path) := by
          rw [hits_exchange hdocumented hlimited, List.countP_cons]
          omega

/-- How a request is answered under the standard limit, after the earlier requests of a
sequence. -/
structure IsAnswered (framework : Framework) (settings : Settings) (earlier : List Request)
    (request : Request) (response : Response) : Prop where
  turned_away_iff : framework.Addresses request → (response.status = 429 ↔
    framework.reachesLimiter settings request = true ∧
      30 ≤ earlier.countP (framework.counts settings request.path))
  eq_alone : response.status ≠ 429 →
    response = (framework.exchange settings .standard {} request).result
  /-- Without a path in its address the request is neither turned away nor let through. -/
  crashed : ¬ framework.Addresses request → response = crashResponse

/-- Under the standard limit, every request of a sequence is turned away exactly if it comes
to the limiter after thirty requests for its path that came there as well, and otherwise it
is answered as if it were sent alone. -/
theorem limits_and_isolates (hdocumented : framework.Documented)
    (hlimited : settings.rateLimited = true) (requests : List Request) {k : Nat}
    (hk : requests[k]? = some request) :
    ∃ answered, (framework.exchanges settings .standard {} requests)[k]? = some answered ∧
      framework.IsAnswered settings (requests.take k) request answered.result := by
  let earlier := requests.take k
  let window := framework.after settings .standard {} earlier
  refine ⟨framework.exchange settings .standard window request, ?_, ?_⟩
  · rw [getElem?_exchanges, hk, Option.map_some]
  have hhits : window.hits request.path =
      earlier.countP (framework.counts settings request.path) := by
    rw [hits_after hdocumented hlimited]
    exact Nat.zero_add _
  constructor
  case turned_away_iff =>
    intro haddresses
    rw [status_exchange_eq_iff hdocumented hlimited haddresses, hhits]
    rfl
  case eq_alone =>
    intro hstatus
    have halone : (framework.exchange settings .standard {} request).result.status ≠ 429 := by
      cases haddress : framework.addressPath request with
      | error text =>
          rw [result_exchange_of_error haddress]
          decide
      | ok path =>
          rw [ne_eq, status_exchange_eq_iff hdocumented hlimited ⟨path, haddress⟩]
          simp [RateLimit.standard, RateWindow.hits]
    exact result_exchange_eq hdocumented hlimited hstatus halone
  case crashed =>
    intro hnone
    cases haddress : framework.addressPath request with
    | error text => exact result_exchange_of_error haddress
    | ok path => exact absurd ⟨path, haddress⟩ hnone

/-- A text that is no contract, submitted for an analysis. -/
def blankAnalysis : Request :=
  submission "/api/v1/analyze" "\x7b\"source\": \" \"\x7d"

/-- The same text, submitted for a diagram. -/
def blankDiagram : Request :=
  submission "/api/v1/diagrams/flow" "\x7b\"source\": \" \"\x7d"

/-- An analysis asked for time and again, after a request that is redirected and one that is
rejected, and at last a diagram. -/
def insistentRequests : List Request :=
  [submission "/api/v1/analyze/" "\x7b\"source\": \" \"\x7d",
    submission "/api/v1/analyze" "\x7b\"source\": \"\"\x7d"] ++
  List.replicate 31 blankAnalysis ++ [blankDiagram]

theorem limits_and_isolates_insistentRequests :
    (∃ beyond, (standard.exchanges {} .standard {} insistentRequests)[32]? = some beyond ∧
      beyond.result.status = 429) ∧
    ∃ other, (standard.exchanges {} .standard {} insistentRequests)[33]? = some other ∧
      other.result.status = 422 := by
  have hrated : ({} : Settings).rateLimited = true := rfl
  have haddresses : ∀ request, standard.Addresses request := fun request =>
    ⟨request.loggedPath, rfl⟩
  obtain ⟨beyond, hbeyond, hlimited⟩ := limits_and_isolates documented_standard hrated
    insistentRequests (show insistentRequests[32]? = some blankAnalysis from rfl)
  obtain ⟨other, hother, hfree⟩ := limits_and_isolates documented_standard hrated
    insistentRequests (show insistentRequests[33]? = some blankDiagram from rfl)
  have hadmitted : other.result.status ≠ 429 := by
    rw [ne_eq, hfree.turned_away_iff (haddresses _)]
    decide +kernel
  refine ⟨⟨beyond, hbeyond, ?_⟩, other, hother, ?_⟩
  · rw [hlimited.turned_away_iff (haddresses _)]
    decide +kernel
  · rw [hfree.eq_alone hadmitted]
    decide +kernel

end ContractAtlas.Service.Framework
