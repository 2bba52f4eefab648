import ContractAtlas.Text.WordTable

/-!
# Word characters

An identifier of the scanned sources is a run of word characters: letters and
digits of any script and the underscore.  Contract languages allow ASCII names
only, but a scan that knows no grammar takes a word as it stands.
-/

namespace ContractAtlas.Text

/-- Whether a number lies in one of several increasing runs. -/
def inRuns (n : Nat) : List (Nat × Nat) → Bool
  | [] => false
  | (first, last) :: rest => first ≤ n && (n ≤ last || inRuns n rest)

/-- Letters and digits of any script, and the underscore. -/
def isWord (c : Char) : Bool :=
  if c.toNat < 0x80 then c.isAlphanum || c == '_' else inRuns c.toNat wordRuns

/-- An ASCII letter, an underscore or a dollar sign. -/
def startsIdentifier (c : Char) : Bool :=
  c.isAlpha || c == '_' || c == '$'

/-- A word character, or one of the marks that join the parts of a qualified
name. -/
def isQualified (c : Char) : Bool :=
  isWord c || c == '$' || c == '.'

/-- A property of all characters of a list, checked along the list. -/
theorem forall_mem_of_all {chars : List Char} {holds : Char → Prop} [DecidablePred holds]
    (hall : chars.all (fun c => decide (holds c)) = true) : ∀ c ∈ chars, holds c :=
  fun c hc => of_decide_eq_true (List.all_eq_true.mp hall c hc)

end ContractAtlas.Text
