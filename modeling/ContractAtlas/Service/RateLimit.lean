import ContractAtlas.Log.Record
import ContractAtlas.Refusal
import ContractAtlas.Service.Message

/-!
# The rate limit

Within one window of time a client may ask for each path a certain number of times.
Every request that comes as far as the limiter counts, also one that is then turned
down.
-/

namespace ContractAtlas.Service

/-- How often a path may be asked for within a window. -/
structure RateLimit where
  most : Nat
  /-- The limit in words. -/
  description : String
  deriving DecidableEq, Repr

/-- Thirty requests a minute. -/
def RateLimit.standard : RateLimit := ⟨30, "30 per 1 minute"⟩

/-- The paths that were asked for within the present window, one for each request that
came as far as the limiter. -/
structure RateWindow where
  reached : List String := []
  deriving DecidableEq, Repr

namespace RateWindow

/-- How often a path was asked for. -/
def hits (window : RateWindow) (path : String) : Nat :=
  window.reached.count path

/-- The window with a further request. -/
def hit (window : RateWindow) (path : String) : RateWindow :=
  ⟨path :: window.reached⟩

/-- Whether a path may be asked for once more. -/
def admits (window : RateWindow) (limit : RateLimit) (path : String) : Bool :=
  window.hits path < limit.most

@[simp]
theorem hits_hit_self (window : RateWindow) (path : String) :
    (window.hit path).hits path = window.hits path + 1 := by
  simp [hits, hit]

theorem hits_hit_of_ne {window : RateWindow} {path other : String} (h : other ≠ path) :
    (window.hit path).hits other = window.hits other := by
  simp [hits, hit, Ne.symm h]

end RateWindow

namespace RateLimit

/-- The response to a request beyond the limit. -/
def response (limit : RateLimit) : Response :=
  Response.json 429 <| errorEnvelope "RATE_LIMIT_EXCEEDED"
    ("Too many requests. " ++ limit.description) (.record [])

def record (limit : RateLimit) : Log.Record :=
  { level := .warning
    logger := "contractviz.middleware.rate_limiter"
    message := "Rate limit exceeded: " ++ limit.description }

end RateLimit

end ContractAtlas.Service
