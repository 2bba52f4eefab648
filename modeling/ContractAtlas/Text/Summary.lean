import ContractAtlas.Text.Blank

/-!
# Summaries

A long text is shown on one line and cut: its words with single spaces between
them, and three dots in place of what goes beyond the limit.
-/

namespace ContractAtlas.Text

/-- The first `count` elements; a negative count leaves out that many at the end. -/
def takeSigned {α : Type} (count : Int) (list : List α) : List α :=
  if 0 ≤ count then list.take count.toNat else list.take (list.length - (-count).toNat)

/-- The words of a text within a limit.  The dots count towards the limit. -/
def summarize (limit : Int) (chars : List Char) : List Char :=
  let collapsed := collapse chars
  if collapsed.length ≤ limit then collapsed
  else takeSigned (limit - 3) collapsed ++ ['.', '.', '.']

/-- The length of the summaries that errors show. -/
def summaryLimit : Int := 80

theorem length_summarize_le {limit : Int} (hlimit : 3 ≤ limit) (chars : List Char) :
    ((summarize limit chars).length : Int) ≤ limit := by
  simp only [summarize, takeSigned]
  split
  · assumption
  · split
    · simp only [List.length_append, List.length_take, List.length_cons, List.length_nil]
      omega
    · omega

end ContractAtlas.Text
