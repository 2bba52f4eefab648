import ContractAtlas.Proofs.Numeral.Decimal
import ContractAtlas.Proofs.Service.AccessLog

/-!
# Announced lengths

The size limit knows nothing of a request but the length that it announces.  A numeral is
judged by its value, with leading zeros or without, and a request that is turned away never
comes to the application behind the limit (`judgesNumeral`).

There is one exception.  A numeral of more than `Numeral.digitLimit` digits is not read, and a
length that is not read counts as zero.  So the longest numerals pass every limit, although
they announce the greatest lengths (`not_judged_by_value`).
-/

namespace ContractAtlas.Service.SizeLimit

/-- An application behind the size limit. -/
def guarded (limit : Int) (application : RateWindow → Request → Exchange) (window : RateWindow)
    (request : Request) : Exchange :=
  match excess? limit (request.header? "content-length") with
  | some length => ⟨response limit length, [record request.title limit length], window⟩
  | none => application window request

/-- The part of the service behind its size limit. -/
def inner : Settings → RateLimit → RateWindow → Request → Exchange :=
  Framework.standard.behindLimit

theorem exchange_eq_guarded (settings : Settings) (rate : RateLimit) :
    exchange settings rate = guarded settings.maxInputBytes (inner settings rate) := rfl

variable {limit length : Int} {request : Request} {digits : List Char}

/-- Whatever the application is, the request is answered without it. -/
def TurnsAway (limit : Int) (request : Request) (length : Int) : Prop :=
  ∀ application window, guarded limit application window request =
    ⟨response limit length, [record request.title limit length], window⟩

/-- Whatever the application is, it gets the request. -/
def LetsThrough (limit : Int) (request : Request) : Prop :=
  ∀ application window, guarded limit application window request = application window request

theorem turnsAway_of_lt (hlength : announced (request.header? "content-length") = length)
    (hlt : limit < length) : TurnsAway limit request length := by
  intro application window
  rw [guarded, excess?_eq_some_iff.mpr ⟨hlength, hlt⟩]

theorem letsThrough_of_le (hle : announced (request.header? "content-length") ≤ limit) :
    LetsThrough limit request := by
  intro application window
  have hnone : excess? limit (request.header? "content-length") = none := by
    rw [Option.eq_none_iff_forall_ne_some]
    intro length hlength
    obtain ⟨rfl, hlt⟩ := excess?_eq_some_iff.mp hlength
    omega
  rw [guarded, hnone]

/-- An application that answers everything tells the two apart. -/
theorem not_letsThrough_of_turnsAway (haway : TurnsAway limit request length) :
    ¬ LetsThrough limit request := by
  intro hthrough
  let answer : Exchange := ⟨.json 200 .null, [], {}⟩
  have heq := (haway (fun _ _ => answer) {}).symm.trans (hthrough _ _)
  have hstatus : 413 = 200 := congrArg (fun exchange => exchange.result.status) heq
  contradiction

/-! ## Decimal numerals -/

/-- A request that announces its length by ASCII digits. -/
structure Announces (request : Request) (digits : List Char) : Prop where
  header : request.header? "content-length" = some (String.ofList digits)
  digits : ∀ c ∈ digits, c.isDigit = true

/-- The number that ASCII digits denote, of which there may be any number. -/
def valueOf (digits : List Char) : Int :=
  Nat.ofDigitChars 10 digits 0

theorem announced_digits (hannounces : Announces request digits) :
    announced (request.header? "content-length") =
      if Numeral.digitLimit < digits.length then 0 else valueOf digits := by
  rw [hannounces.header, announced, Option.getD_some, String.toList_ofList]
  by_cases hne : digits = []
  · subst hne
    rfl
  · rw [Numeral.read_digits hannounces.digits hne]
    by_cases hlong : Numeral.digitLimit < digits.length
    · simp only [hlong, if_true]
    · simp only [hlong, if_false]
      rfl

theorem turnsAway_digits (hannounces : Announces request digits) (hlt : limit < valueOf digits)
    (hshort : digits.length ≤ Numeral.digitLimit) :
    TurnsAway limit request (valueOf digits) := by
  refine turnsAway_of_lt ?_ hlt
  rw [announced_digits hannounces, if_neg (Nat.not_lt.mpr hshort)]

/-- How a limit judges a request by the digits that announce its length. -/
structure JudgesNumeral (limit : Int) (request : Request) (digits : List Char) : Prop where
  turnsAway : limit < valueOf digits → digits.length ≤ Numeral.digitLimit →
    TurnsAway limit request (valueOf digits)
  letsThrough_iff : LetsThrough limit request ↔
    valueOf digits ≤ limit ∨ Numeral.digitLimit < digits.length
  exchange_eq : ∀ settings rate window, settings.maxInputBytes = limit →
    exchange settings rate window request =
      if limit < valueOf digits ∧ digits.length ≤ Numeral.digitLimit then
        ⟨response limit (valueOf digits), [record request.title limit (valueOf digits)],
          window⟩
      else inner settings rate window request
  status_iff : ∀ settings rate window, settings.maxInputBytes = limit →
    ((exchange settings rate window request).result.status = 413 ↔
      limit < valueOf digits ∧ digits.length ≤ Numeral.digitLimit)
  monotone : ∀ other more, Announces other more → more.length ≤ Numeral.digitLimit →
    valueOf digits ≤ valueOf more → ¬ LetsThrough limit request →
      TurnsAway limit other (valueOf more)

section Judging

variable (hlimit : 0 ≤ limit) (hannounces : Announces request digits)

include hlimit hannounces

/-- What is announced exceeds a limit that is not negative exactly if its numeral does and
can be read. -/
theorem limit_lt_announced_iff : limit < announced (request.header? "content-length") ↔
    limit < valueOf digits ∧ digits.length ≤ Numeral.digitLimit := by
  rw [announced_digits hannounces]
  split <;> omega

theorem letsThrough_digits_iff : LetsThrough limit request ↔
    valueOf digits ≤ limit ∨ Numeral.digitLimit < digits.length := by
  have hexceeds := limit_lt_announced_iff hlimit hannounces
  constructor
  · intro hthrough
    by_contra houtside
    rw [not_or, Int.not_le, Nat.not_lt] at houtside
    have haway := turnsAway_digits hannounces houtside.1 houtside.2
    exact not_letsThrough_of_turnsAway haway hthrough
  · intro hfits
    exact letsThrough_of_le (Int.not_lt.mp fun hlt => by omega)

/-- Digits that announce the length of a request are judged by the number they denote, as
long as there are not too many of them. -/
theorem judgesNumeral : JudgesNumeral limit request digits where
  turnsAway := turnsAway_digits hannounces
  letsThrough_iff := letsThrough_digits_iff hlimit hannounces
  exchange_eq := by
    rintro settings rate window rfl
    rw [exchange_eq_guarded]
    split
    next hexceeds => exact turnsAway_digits hannounces hexceeds.1 hexceeds.2 _ _
    next hfits =>
      have hthrough : LetsThrough settings.maxInputBytes request :=
        (letsThrough_digits_iff hlimit hannounces).mpr (by omega)
      exact hthrough _ _
  status_iff := by
    intro settings rate window hsettings
    rw [(recorded_exchange settings rate window request).status_eq_iff, IsOversize, hsettings]
    exact limit_lt_announced_iff hlimit hannounces
  monotone := by
    intro other more hother hshort hle haway
    rw [letsThrough_digits_iff hlimit hannounces, not_or, Int.not_le] at haway
    exact turnsAway_digits hother (Int.lt_of_lt_of_le haway.1 hle) hshort

end Judging

theorem announces_healthRequest (digits : List Char) (hdigits : ∀ c ∈ digits, c.isDigit = true) :
    Announces (healthRequest (String.ofList digits)) digits where
  header := by
    have hname : ("content-length".toLower == "content-length") = true := by decide +kernel
    simp [Request.header?, healthRequest, hname]
  digits := hdigits

theorem judgesNumeral_leadingZeros :
    let request := healthRequest "0000200001"
    Announces request "0000200001".toList ∧ valueOf "0000200001".toList = 200001 ∧
      TurnsAway 200000 request 200001 ∧ LetsThrough 200001 request := by
  have hannounces : Announces (healthRequest "0000200001") "0000200001".toList :=
    announces_healthRequest "0000200001".toList (Text.forall_mem_of_all (by decide))
  have hvalue : valueOf "0000200001".toList = 200001 := by decide
  have hshort : "0000200001".toList.length ≤ Numeral.digitLimit := by decide
  refine ⟨hannounces, hvalue, ?_, ?_⟩
  · rw [← hvalue]
    exact (judgesNumeral (by decide) hannounces).turnsAway (by decide) hshort
  · exact (judgesNumeral (by decide) hannounces).letsThrough_iff.mpr (.inl (by decide))

/-- The greatest length that can be announced by so many digits. -/
def longNumeral : List Char :=
  List.replicate 4301 '9'

/-- A request that announces far more than the limit, in a numeral that is not read, comes to
the application. -/
theorem not_judged_by_value :
    Announces (healthRequest (String.ofList longNumeral)) longNumeral ∧
      200000 < valueOf longNumeral ∧
      LetsThrough 200000 (healthRequest (String.ofList longNumeral)) ∧
      ¬ ∀ request digits, Announces request digits →
        (LetsThrough 200000 request ↔ valueOf digits ≤ 200000) := by
  have hannounces : Announces (healthRequest (String.ofList longNumeral)) longNumeral :=
    announces_healthRequest longNumeral fun c hc => by
      rw [List.eq_of_mem_replicate hc]
      rfl
  have hlong : 200000 < valueOf longNumeral := by decide +kernel
  have hcount : Numeral.digitLimit < longNumeral.length := by
    rw [longNumeral, List.length_replicate]
    decide
  have hthrough : LetsThrough 200000 (healthRequest (String.ofList longNumeral)) :=
    (letsThrough_digits_iff (by decide) hannounces).mpr (.inr hcount)
  refine ⟨hannounces, hlong, hthrough, fun hjudged => ?_⟩
  have hle := (hjudged _ _ hannounces).mp hthrough
  omega

end ContractAtlas.Service.SizeLimit
