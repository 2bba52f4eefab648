import ContractAtlas.Service

/-!
# The way of a request to the limiter

A request comes as far as the rate limiter if it fits, if it leads to an endpoint other
than the one for the health of the service, and if its path and its payload have the form
that the endpoint asks for.  What happens to it up to there depends on nothing but the
request and the settings.  So there are two kinds of requests: those that come to the
limiter with an inquiry (`exchange_of_passes`), and those that are answered before, which
leave the window as it is (`exchange_of_not_reachesLimiter`).

This holds whatever the framework does, as long as it is as documented.
-/

namespace ContractAtlas.Service

variable {settings : Settings} {limit : RateLimit} {window : RateWindow} {request : Request}
  {endpoint : Endpoint} {inquiry : Inquiry} {turn : Turn Outcome} {text title : String}

/-! ## Outcomes -/

/-- The response that a client gets for an outcome. -/
def Outcome.response : Outcome → Response
  | .responded response => response
  | .crashed _ => crashResponse

/-- The last record of an exchange, in which the request has a title. -/
def Outcome.record (title : String) : Outcome → Log.Record
  | .responded response => accessRecord title response.status
  | .crashed text => crashRecord text

@[simp]
theorem Outcome.status_response (outcome : Outcome) : outcome.response.status = outcome.status := by
  cases outcome <;> rfl

theorem status_refusal_ne_limited (refusal : Refusal) : refusal.status ≠ 429 := by
  cases refusal <;> simp [Refusal.status]

theorem status_outcomeOf_ne_limited (answer : Except Failure Json) :
    (outcomeOf answer).status ≠ 429 := by
  match answer with
  | .ok _ => simp [outcomeOf, Outcome.status, Response.json]
  | .error (.refused refusal) => exact status_refusal_ne_limited refusal
  | .error (.unexpected _) => simp [outcomeOf, Outcome.status]

namespace Framework

variable {framework : Framework}

@[simp]
theorem status_annotated (framework : Framework) (settings : Settings) (request : Request)
    (turn : Turn Outcome) :
    (framework.annotated settings request turn).result.status = turn.result.status := by
  obtain ⟨result, records, window⟩ := turn
  cases result <;> rfl

/-! ## Concluding an exchange -/

theorem concluded_of_title (htitle : framework.title request = .ok title) :
    framework.concluded request turn =
      ⟨turn.result.response, turn.records ++ [turn.result.record title], turn.window⟩ := by
  rw [concluded, htitle]
  cases turn.result <;> rfl

/-- Without a title, everything ends in a crash. -/
theorem result_concluded_of_error (htitle : framework.title request = .error text) :
    (framework.concluded request turn).result = crashResponse := by
  rw [concluded, htitle]
  cases turn.result <;> rfl

@[simp]
theorem window_concluded (framework : Framework) (request : Request) (turn : Turn Outcome) :
    (framework.concluded request turn).window = turn.window := by
  rw [concluded]
  cases turn.result <;> cases framework.title request <;> rfl

/-- The window has no part in what is concluded. -/
theorem concluded_with (framework : Framework) (request : Request) (turn : Turn Outcome)
    (window : RateWindow) : framework.concluded request { turn with window } =
      { framework.concluded request turn with window } := by
  simp only [concluded]
  cases turn.result <;> cases framework.title request <;> rfl

theorem status_concluded_ne_limited (hstatus : turn.result.status ≠ 429) :
    (framework.concluded request turn).result.status ≠ 429 := by
  cases htitle : framework.title request with
  | ok title =>
      rw [concluded_of_title htitle, Outcome.status_response]
      exact hstatus
  | error text =>
      rw [result_concluded_of_error htitle]
      decide

/-! ## Coming to the limiter -/

/-- Whether a request comes as far as the limiter: it fits, it leads to an endpoint other
than the one for the health of the service, and what its path and its payload ask for there
is in the form of an inquiry. -/
def reachesLimiter (framework : Framework) (settings : Settings) (request : Request) : Bool :=
  (SizeLimit.excess? settings.maxInputBytes (request.header? "content-length")).isNone &&
    match framework.route request with
    | .endpoint endpoint =>
      endpoint ≠ .health &&
        (Inquiry.ofPayload endpoint (framework.payload request)).toOption.isSome
    | .answered _ => false

/-- A request that comes to the limiter with an inquiry. -/
structure Passes (framework : Framework) (settings : Settings) (request : Request)
    (endpoint : Endpoint) (inquiry : Inquiry) : Prop where
  fits : SizeLimit.excess? settings.maxInputBytes (request.header? "content-length") = none
  leads : framework.route request = .endpoint endpoint
  not_health : endpoint ≠ .health
  asks : Inquiry.ofPayload endpoint (framework.payload request) = .ok inquiry

theorem reachesLimiter_iff : framework.reachesLimiter settings request = true ↔
    ∃ endpoint inquiry, framework.Passes settings request endpoint inquiry := by
  constructor
  · intro h
    simp only [reachesLimiter, Bool.and_eq_true, Option.isNone_iff_eq_none] at h
    obtain ⟨hfits, h⟩ := h
    split at h
    · case h_1 endpoint hleads =>
      simp only [Bool.and_eq_true, decide_eq_true_eq] at h
      cases hasks : Inquiry.ofPayload endpoint (framework.payload request) with
      | error rejection => simp [hasks, Except.toOption] at h
      | ok inquiry => exact ⟨endpoint, inquiry, hfits, hleads, h.1, hasks⟩
    · simp at h
  · rintro ⟨endpoint, inquiry, h⟩
    simp [reachesLimiter, h.fits, h.leads, h.not_health, h.asks, Except.toOption]

theorem isLimited_of_ofPayload {payload : Except PayloadError Payload}
    (hhealth : endpoint ≠ .health) (h : Inquiry.ofPayload endpoint payload = .ok inquiry) :
    inquiry.isLimited = true := by
  cases endpoint with
  | health => exact absurd rfl hhealth
  | analyse | analyseBatch | functionDiagram | contractDiagram =>
      rw [Inquiry.ofPayload, Except.map.eq_def] at h
      split at h
      · cases h
      · cases h
        rfl

/-- What becomes of a request that fits and asks for no permission. -/
theorem exchange_eq_concluded
    (hfits : SizeLimit.excess? settings.maxInputBytes (request.header? "content-length") = none)
    (hpreflight : framework.preflight? settings.origins request = none) :
    framework.exchange settings limit window request = framework.concluded request
      (framework.annotated settings request
        (framework.dispatch settings limit window request)) := by
  rw [exchange, hfits]
  simp only [behindLimit, behindLog, hpreflight]

/-- What becomes of a request that comes to the limiter. -/
theorem exchange_of_passes (hdocumented : framework.Documented)
    (h : framework.Passes settings request endpoint inquiry) :
    framework.exchange settings limit window request = framework.concluded request
      (framework.annotated settings request
        (inquire settings limit window request.path inquiry)) := by
  rw [exchange_eq_concluded h.fits (hdocumented.preflight_eq_none h.leads)]
  simp only [dispatch, h.leads, h.asks]

/-! ## Answers before the limiter -/

/-- An inquiry that does not come to the limiter is the one for the health of the
service. -/
theorem eq_health_of_not_reachesLimiter
    (h : framework.reachesLimiter settings request = false)
    (hfits : SizeLimit.excess? settings.maxInputBytes (request.header? "content-length") = none)
    (hleads : framework.route request = .endpoint endpoint)
    (hasks : Inquiry.ofPayload endpoint (framework.payload request) = .ok inquiry) :
    endpoint = .health := by
  rcases Decidable.em (endpoint = .health) with hhealth | hhealth
  · exact hhealth
  · have hpasses : framework.Passes settings request endpoint inquiry :=
      ⟨hfits, hleads, hhealth, hasks⟩
    rw [reachesLimiter_iff.mpr ⟨endpoint, inquiry, hpasses⟩] at h
    cases h

/-- A request that fits and yet does not come to the limiter has an outcome that no
window has a part in. -/
theorem dispatch_of_not_reachesLimiter (hdocumented : framework.Documented)
    (hfits : SizeLimit.excess? settings.maxInputBytes (request.header? "content-length") = none)
    (h : framework.reachesLimiter settings request = false) :
    ∃ outcome records, outcome.status ≠ 429 ∧ ∀ limit window,
      framework.dispatch settings limit window request = ⟨outcome, records, window⟩ := by
  cases hleads : framework.route request with
  | answered response =>
      refine ⟨.responded response, [], hdocumented.status_answered hleads, fun limit window => ?_⟩
      simp only [dispatch, hleads, silent]
  | endpoint endpoint =>
      cases hasks : Inquiry.ofPayload endpoint (framework.payload request) with
      | error rejection =>
          refine ⟨framework.rejected rejection, [], hdocumented.status_rejected rejection,
            fun limit window => ?_⟩
          simp only [dispatch, hleads, hasks]
      | ok inquiry =>
          obtain rfl := eq_health_of_not_reachesLimiter h hfits hleads hasks
          cases hasks
          refine ⟨outcomeOf (Inquiry.answer settings .health).answer,
            (Inquiry.answer settings .health).records, status_outcomeOf_ne_limited _,
            fun limit window => ?_⟩
          simp only [dispatch, hleads, Inquiry.ofPayload, inquire, Inquiry.isLimited,
            Bool.and_false, Bool.false_eq_true, if_false]

/-- So does a request that asks for permission. -/
theorem behindLog_of_not_reachesLimiter (hdocumented : framework.Documented)
    (hfits : SizeLimit.excess? settings.maxInputBytes (request.header? "content-length") = none)
    (h : framework.reachesLimiter settings request = false) :
    ∃ turn : Turn Outcome, turn.result.status ≠ 429 ∧ ∀ limit window,
      framework.behindLog settings limit window request = { turn with window } := by
  cases hpreflight : framework.preflight? settings.origins request with
  | some response =>
      refine ⟨silent {} response, hdocumented.status_preflight hpreflight, fun limit window => ?_⟩
      rw [behindLog, hpreflight]
      rfl
  | none =>
      obtain ⟨outcome, records, hstatus, hdispatch⟩ :=
        dispatch_of_not_reachesLimiter hdocumented hfits h
      refine ⟨framework.annotated settings request ⟨outcome, records, {}⟩, ?_,
        fun limit window => ?_⟩
      · rwa [status_annotated]
      · rw [behindLog, hpreflight]
        simp only [hdispatch]
        rfl

/-- What becomes of a request that does not come to the limiter: it is answered whatever
the window holds, with a status other than that of the limiter. -/
theorem exchange_of_not_reachesLimiter (hdocumented : framework.Documented)
    (h : framework.reachesLimiter settings request = false) :
    ∃ response records, response.status ≠ 429 ∧ ∀ limit window,
      framework.exchange settings limit window request = ⟨response, records, window⟩ := by
  cases hfits : SizeLimit.excess? settings.maxInputBytes (request.header? "content-length") with
  | some length =>
      simp only [exchange, hfits]
      cases framework.title request with
      | ok title =>
          exact ⟨SizeLimit.response settings.maxInputBytes length, _,
            by simp [SizeLimit.response, Response.json], fun _ _ => rfl⟩
      | error text => exact ⟨crashResponse, _, by decide, fun _ _ => rfl⟩
  | none =>
      obtain ⟨turn, hstatus, hbehind⟩ := behindLog_of_not_reachesLimiter hdocumented hfits h
      have hne : (framework.concluded request turn).result.status ≠ 429 :=
        status_concluded_ne_limited hstatus
      refine ⟨_, (framework.concluded request turn).records, hne, fun limit window => ?_⟩
      simp only [exchange, hfits, behindLimit, hbehind, concluded_with]

end Framework

/-! ## The service itself -/

/-- A request that comes to the limiter of the service with an inquiry. -/
abbrev Passes : Settings → Request → Endpoint → Inquiry → Prop :=
  Framework.standard.Passes

theorem Passes.of_toOption
    (hfits : SizeLimit.excess? settings.maxInputBytes (request.header? "content-length") = none)
    (hleads : Destination.ofRequest request = .endpoint endpoint) (hhealth : endpoint ≠ .health)
    (hasks : (Inquiry.ofPayload endpoint (Payload.ofRequest request)).toOption = some inquiry) :
    Passes settings request endpoint inquiry := by
  refine ⟨hfits, ?_, hhealth, ?_⟩
  · rw [Framework.route_standard, Framework.standardRoute, hleads]
  · rw [Framework.payload_standard]
    cases h : Inquiry.ofPayload endpoint (Payload.ofRequest request) with
    | error rejection => simp [h, Except.toOption] at hasks
    | ok found => simpa [h, Except.toOption] using hasks

theorem Framework.ofRequest_of_standardRoute (h : standardRoute request = .endpoint endpoint) :
    Destination.ofRequest request = .endpoint endpoint := by
  rw [standardRoute] at h
  split at h <;> cases h
  assumption

theorem Destination.method_of_ofRequest (h : Destination.ofRequest request = .endpoint endpoint) :
    request.method = endpoint.method := by
  rw [Destination.ofRequest] at h
  split at h
  · split at h
    next hmethod =>
      cases h
      exact hmethod
    next => cases h
  · split at h <;> cases h
  · simp only at h
    split at h <;> cases h

theorem Passes.method_eq (h : Passes settings request endpoint inquiry) :
    request.method = endpoint.method :=
  Destination.method_of_ofRequest (Framework.ofRequest_of_standardRoute h.leads)

/-- The answers to requests for permission. -/
theorem timed_and_status_preflight {origins : List String} {response : Response}
    (h : CrossOrigin.preflight? origins request = some response) :
    response.timed = true ∧ response.status ∈ [200, 400] := by
  rw [CrossOrigin.preflight?] at h
  split at h
  · cases h
    refine ⟨rfl, ?_⟩
    simp only
    split <;> decide
  · cases h

/-- The answers without an endpoint. -/
theorem timed_and_status_standardRoute {response : Response}
    (h : Framework.standardRoute request = .answered response) :
    response.timed = true ∧ response.status ∈ [200, 307, 404, 405] := by
  rw [Framework.standardRoute] at h
  split at h <;> cases h
  next page _ => cases page <;> exact ⟨rfl, by decide⟩
  all_goals
    refine ⟨rfl, ?_⟩
    simp [methodNotAllowed, redirection, notFound, Response.withHeaders, Response.json]

/-- No endpoint is asked with the method by which browsers ask for permission. -/
theorem preflight?_of_standardRoute {origins : List String}
    (h : Framework.standardRoute request = .endpoint endpoint) :
    CrossOrigin.preflight? origins request = none := by
  have hmethod : request.method ≠ "OPTIONS" := by
    rw [Destination.method_of_ofRequest (Framework.ofRequest_of_standardRoute h)]
    cases endpoint <;> simp [Endpoint.method]
  simp [CrossOrigin.preflight?, CrossOrigin.isPreflight, hmethod]

/-- The framework is as documented for all requests on the common way. -/
theorem Framework.documented_standard : Framework.standard.Documented where
  preflight_eq_none := preflight?_of_standardRoute
  status_preflight h := ne_of_mem_of_not_mem (timed_and_status_preflight h).2 (by decide)
  status_answered h := ne_of_mem_of_not_mem (timed_and_status_standardRoute h).2 (by decide)
  status_rejected rejection := by
    cases rejection <;> simp [Framework.standard, Rejection.outcome, Outcome.status, Response.json]

theorem Framework.title_standard (request : Request) :
    Framework.standard.title request = .ok request.title := rfl

/-- A request that the limiter lets through is answered. -/
theorem exists_exchange_of_passes (h : Passes settings request endpoint inquiry)
    (hstatus : (exchange settings limit window request).result.status ≠ 429) :
    ∃ next, exchange settings limit window request = Framework.standard.concluded request
      (Framework.standard.annotated settings request
        ⟨outcomeOf (inquiry.answer settings).answer, (inquiry.answer settings).records, next⟩) := by
  rw [exchange, Framework.exchange_of_passes Framework.documented_standard h, inquire] at hstatus ⊢
  split
  next hlimited =>
    split
    next => exact ⟨_, rfl⟩
    next hbeyond =>
      rw [if_pos hlimited, if_neg hbeyond] at hstatus
      exact absurd rfl hstatus
  next => exact ⟨_, rfl⟩

/-- The records of a request that the limiter lets through. -/
theorem records_exchange_of_passes (h : Passes settings request endpoint inquiry)
    (hstatus : (exchange settings limit window request).result.status ≠ 429) :
    (exchange settings limit window request).records =
      (inquiry.answer settings).records ++
        [(outcomeOf (inquiry.answer settings).answer).record request.title] := by
  obtain ⟨next, hexchange⟩ := exists_exchange_of_passes h hstatus
  rw [hexchange, Framework.concluded_of_title (Framework.title_standard request)]
  simp only [Framework.annotated]
  cases outcomeOf (inquiry.answer settings).answer <;> rfl

/-- A request with a JSON body. -/
def submission (path body : String) : Request :=
  { method := "POST", path, headers := [("Content-Type", "application/json")], body }

end ContractAtlas.Service
