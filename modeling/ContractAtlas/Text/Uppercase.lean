import ContractAtlas.Text.UppercaseTable

/-!
# Upper case

The upper-case form of a text, letter by letter.  A letter may have a form of several
letters, and most characters are their own form.
-/

namespace ContractAtlas.Text

/-- The upper-case letter of a code point in a run. -/
def CaseRun.image? (run : CaseRun) (n : Nat) : Option Nat :=
  if run.first ≤ n && n ≤ run.last && (n - run.first) % run.step == 0 then
    some (n + run.shift).toNat
  else none

/-- The upper-case form of a character. -/
def uppercaseOf (c : Char) : List Char :=
  if c.toNat < 0x80 then [c.toUpper]
  else
    match uppercaseExpansions.lookup c.toNat with
    | some expansion => expansion.map Char.ofNat
    | none =>
      match uppercaseRuns.findSome? (·.image? c.toNat) with
      | some image => [Char.ofNat image]
      | none => [c]

def uppercase (chars : List Char) : List Char :=
  chars.flatMap uppercaseOf

end ContractAtlas.Text
