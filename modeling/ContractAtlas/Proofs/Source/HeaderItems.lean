import ContractAtlas.Proofs.Canonical.Shapes
import ContractAtlas.Proofs.FirstSeen
import ContractAtlas.Proofs.Source.Parts

/-!
# Headers in any order

The header of a function is a row of items with blanks between them: a visibility, a
mutability, the markers `virtual` and `override`, the results, and the modifiers that the
function invokes.  Their order is free.  Two things must not go wrong when a header is read.
The results clause is cut out before the words are looked at, so it has to be found as a
whole and nowhere else; and a word takes the parenthesis behind it along, so it must never
take one that belongs to another item.

Both follow from what can stand behind an item: its own arguments, or a blank and then a
letter.  So every header says what its items say (`functionHeader_of_spells`), and the order
of the items shows in nothing but the order of the modifiers.
-/

namespace ContractAtlas.Source

open ContractAtlas.Canonical ContractAtlas.Text

/-! ## The items of a header -/

/-- The words of a header that are no modifiers. -/
def headerKeywords : List String :=
  ["public", "private", "internal", "external", "pure", "view", "nonpayable", "payable",
    "virtual", "override", "returns"]

/-- What is handed to a modifier or to `override`, without parentheses inside. -/
structure Arguments where
  chars : List Char
  free : ∀ c ∈ chars, c ≠ '(' ∧ c ≠ ')'

/-- An ASCII letter or an underscore, then ASCII letters, digits and underscores, and no
keyword. -/
structure ModifierName where
  name : String
  starts : name.toList.head?.any (fun c => c.isAlpha || c == '_') = true
  continues : name.toList.all isPlain = true
  free : name ∉ headerKeywords

/-- The parenthesised list behind the word `returns`, with the blanks in front of it. -/
structure ResultsClause where
  space : List Char
  list : List Char
  blank : ∀ c ∈ space, isBlank c = true
  closing : ')' ∉ list

inductive HeaderItem where
  | visibility (value : Visibility)
  | mutability (value : Mutability)
  | virtual
  | override (arguments : Option Arguments)
  | results (clause : ResultsClause)
  | modifier (name : ModifierName) (arguments : Option Arguments)

/-- Arguments in their parentheses, if there are any. -/
def enclosedArguments : Option Arguments → List Char
  | some arguments => '(' :: (arguments.chars ++ [')'])
  | none => []

def ResultsClause.chars (clause : ResultsClause) : List Char :=
  clause.space ++ '(' :: (clause.list ++ [')'])

namespace HeaderItem

/-- The word that an item starts with. -/
def word : HeaderItem → String
  | .visibility value => value.keyword
  | .mutability value => value.keyword
  | .virtual => "virtual"
  | .override _ => "override"
  | .results _ => "returns"
  | .modifier name _ => name.name

/-- What belongs to an item behind its word. -/
def tail : HeaderItem → List Char
  | .override arguments | .modifier _ arguments => enclosedArguments arguments
  | .results clause => clause.chars
  | _ => []

def chars (item : HeaderItem) : List Char :=
  item.word.toList ++ item.tail

theorem chars_results (clause : ResultsClause) : (HeaderItem.results clause).chars =
    "returns".toList ++ (clause.space ++ '(' :: (clause.list ++ [')'])) := rfl

def visibility? : HeaderItem → Option Visibility
  | .visibility value => some value
  | _ => none

def mutability? : HeaderItem → Option Mutability
  | .mutability value => some value
  | _ => none

def results? : HeaderItem → Option ResultsClause
  | .results clause => some clause
  | _ => none

/-- The name of the modifier that an item invokes. -/
def modifier? : HeaderItem → Option String
  | .modifier name _ => some name.name
  | _ => none

end HeaderItem

/-- A text is made of items, with blanks between neighbours and perhaps at both ends. -/
inductive Spells : List HeaderItem → List Char → Prop
  | nil {space : List Char} (hspace : ∀ c ∈ space, isBlank c = true) : Spells [] space
  | cons {item : HeaderItem} {items : List HeaderItem} {space rest : List Char}
      (hspace : ∀ c ∈ space, isBlank c = true) (hrest : ∀ c ∈ rest.head?, isBlank c = true)
      (hitems : Spells items rest) : Spells (item :: items) (space ++ (item.chars ++ rest))

/-- No more than one visibility, one mutability and one results clause. -/
structure AtMostOnce (items : List HeaderItem) : Prop where
  visibility : (items.filterMap HeaderItem.visibility?).length ≤ 1
  mutability : (items.filterMap HeaderItem.mutability?).length ≤ 1
  results : (items.filterMap HeaderItem.results?).length ≤ 1

/-- What items say: what is missing is public, not payable, without results. -/
def headerOfItems (items : List HeaderItem) : FunctionHeader where
  visibility := (items.filterMap HeaderItem.visibility?).head?.getD .publicly
  mutability := (items.filterMap HeaderItem.mutability?).head?.getD .nonpayable
  outputs := ((items.filterMap HeaderItem.results?).head?.map fun clause =>
    parameters clause.list).getD []
  modifiers := (items.filterMap HeaderItem.modifier?).eraseDups

/-! ## The words of items -/

variable {item : HeaderItem} {items others : List HeaderItem} {text rest space : List Char}

theorem isPlain_of_isQualified_eq_false {c : Char} (hc : isQualified c = false) :
    isPlain c = false := by
  cases hplain : isPlain c with
  | false => rfl
  | true => rw [isQualified_of_isPlain hplain] at hc; contradiction

namespace HeaderItem

theorem isName_word (item : HeaderItem) : IsName item.word.toList := by
  cases item with
  | visibility value => exact isName_keyword value
  | mutability value => cases value <;> exact isName_of_mem_reservedWords (by decide)
  | virtual => exact isName_of_mem_reservedWords (by decide)
  | override arguments =>
      have hreserved : "override" ∈ reservedWords := by decide
      exact isName_of_mem_reservedWords hreserved
  | results clause =>
      have hreserved : "returns" ∈ reservedWords := by decide
      exact isName_of_mem_reservedWords hreserved
  | modifier name arguments => exact isName_of_starts name.starts name.continues

theorem word_ne_returns (hitem : item.results? = none) : item.word ≠ "returns" := by
  cases item with
  | visibility value => cases value <;> decide
  | mutability value => cases value <;> decide
  | virtual => decide
  | override arguments => exact show "override" ≠ "returns" by decide
  | results clause => contradiction
  | modifier name arguments =>
      have hkeyword : "returns" ∈ headerKeywords := by decide
      intro heq
      exact name.free (Eq.subst (motive := (· ∈ headerKeywords)) heq.symm hkeyword)

/-- Behind the word of an item stand at most its arguments. -/
theorem exists_tail_eq (hitem : item.results? = none) :
    ∃ arguments, item.tail = enclosedArguments arguments := by
  cases item with
  | results clause => contradiction
  | override arguments => exact ⟨arguments, rfl⟩
  | modifier name arguments => exact ⟨arguments, rfl⟩
  | _ => exact ⟨none, rfl⟩

theorem exists_cons (item : HeaderItem) :
    ∃ c more, item.chars = c :: more ∧ startsIdentifier c = true := by
  have hname := item.isName_word
  obtain ⟨c, more, hword, -⟩ := hname.exists_cons
  have hstarts := hname.starts
  rw [hword] at hstarts
  exact ⟨c, more ++ item.tail, by rw [chars, hword, List.cons_append], hstarts c rfl⟩

theorem stopsAt_isBlank (item : HeaderItem) (rest : List Char) :
    StopsAt isBlank (item.chars ++ rest) := by
  rw [chars, List.append_assoc]
  exact item.isName_word.stopsAt_isBlank _

end HeaderItem

theorem stopsAt_enclosedArguments (hrest : ∀ c ∈ rest.head?, isBlank c = true)
    (arguments : Option Arguments) : StopsAt isQualified (enclosedArguments arguments ++ rest) := by
  cases arguments with
  | some arguments =>
      rintro _ ⟨⟩
      decide
  | none =>
      intro c hc
      exact isQualified_of_isBlank (hrest c hc)

/-! ## Blanks between items -/

namespace Spells

theorem append_left (hspace : ∀ c ∈ space, isBlank c = true) (htext : Spells items text) :
    Spells items (space ++ text) := by
  have hboth : ∀ {more : List Char}, (∀ c ∈ more, isBlank c = true) →
      ∀ c ∈ space ++ more, isBlank c = true := by
    intro more hmore c hc
    rcases List.mem_append.mp hc with hc | hc
    · exact hspace c hc
    · exact hmore c hc
  cases htext with
  | nil hmore => exact .nil (hboth hmore)
  | cons hmore hrest hitems =>
      rw [← List.append_assoc]
      exact .cons (hboth hmore) hrest hitems

/-- Behind blanks stand the same items, or nothing. -/
theorem trimStart (htext : Spells items text) : Spells items (Text.trimStart text) := by
  cases htext with
  | nil hspace =>
      have htrim : Text.trimStart text = [] :=
        trimStart_eq_iff.mpr ⟨by simp [StopsAt], text, hspace, by simp⟩
      rw [htrim]
      exact .nil (by simp)
  | cons hspace hrest hitems =>
      rename_i item items space rest
      have htrim : Text.trimStart (space ++ (item.chars ++ rest)) = item.chars ++ rest :=
        trimStart_eq_iff.mpr ⟨item.stopsAt_isBlank rest, space, hspace, rfl⟩
      rw [htrim]
      exact (List.nil_append (item.chars ++ rest)) ▸ Spells.cons (by simp) hrest hitems

theorem enclosed?_trimStart (htext : Spells items text) :
    enclosed? (Text.trimStart text) = none := by
  cases htext with
  | nil hspace =>
      rw [trimStart_eq_iff.mpr ⟨by simp [StopsAt], text, hspace, (List.append_nil text).symm⟩]
      rfl
  | cons hspace hrest hitems =>
      rename_i item items space rest
      rw [trimStart_eq_iff.mpr ⟨item.stopsAt_isBlank rest, space, hspace, rfl⟩]
      obtain ⟨c, more, hchars, hstarts⟩ := item.exists_cons
      rw [hchars, List.cons_append]
      refine enclosed?_eq_none ?_
      rintro rfl
      exact Bool.noConfusion hstarts

end Spells

/-- A shape that reads nothing at a blank finds nothing among blanks. -/
theorem quiet_of_isBlank {α : Type} {shape : Shape α}
    (hshape : ∀ {c}, isBlank c = true → ∀ before rest, shape before (c :: rest) = none)
    (hspace : ∀ c ∈ space, isBlank c = true) (rest : List Char) : Quiet shape space rest := by
  induction space with
  | nil => exact Quiet.nil rest
  | cons c more ih =>
      obtain ⟨hc, hmore⟩ := List.forall_mem_cons.mp hspace
      exact Quiet.cons (quiet_singleton fun before => hshape hc before _) (ih hmore)

/-! ## The words of a header -/

theorem headerWordShape_blank {c : Char} (hc : isBlank c = true) (before : Option Char)
    (rest : List Char) : headerWordShape before (c :: rest) = none := by
  rw [headerWordShape, startsIdentifier_of_isBlank hc, if_neg Bool.false_ne_true]

/-- What is left behind a word, its arguments and blanks. -/
def behindWord (text : List Char) : List Char :=
  match enclosed? (trimStart text) with
  | some (_, left) => left
  | none => trimStart text

theorem headerWordShape_word {word behind : List Char} (hword : IsName word)
    (hbehind : StopsAt isQualified behind) (before : Option Char) :
    headerWordShape before (word ++ behind) =
      some (String.ofList word, behindWord behind) := by
  have hqualified : ∀ c ∈ word, isQualified c = true := fun _ => hword.isQualified
  have htake := takeWhile_append_of_stopsAt hqualified hbehind
  have hdrop := dropWhile_append_of_stopsAt hqualified hbehind
  have hstarts := hword.starts
  obtain ⟨c, more, rfl, -⟩ := hword.exists_cons
  rw [List.cons_append] at htake hdrop ⊢
  simp only [headerWordShape, if_pos (hstarts c rfl), htake, hdrop]
  rfl

/-- The word of an item is read with the item's own arguments, and then with blanks. -/
theorem exists_headerWordShape_item (hitem : item.results? = none)
    (hrest : ∀ c ∈ rest.head?, isBlank c = true) (hitems : Spells items rest)
    (before : Option Char) : ∃ blanks left, rest = blanks ++ left ∧ Spells items left ∧
      headerWordShape before (item.chars ++ rest) = some (item.word, left) := by
  obtain ⟨arguments, htail⟩ := item.exists_tail_eq hitem
  have hread := headerWordShape_word item.isName_word
    (stopsAt_enclosedArguments hrest arguments) before
  rw [HeaderItem.chars, htail, List.append_assoc, hread, String.ofList_toList]
  cases arguments with
  | none =>
      refine ⟨rest.takeWhile isBlank, trimStart rest, List.takeWhile_append_dropWhile.symm,
        hitems.trimStart, ?_⟩
      simp only [enclosedArguments, List.nil_append, behindWord, hitems.enclosed?_trimStart]
  | some arguments =>
      have hclosing : ')' ∉ arguments.chars := fun hmem => (arguments.free _ hmem).2 rfl
      have htrim : trimStart ('(' :: (arguments.chars ++ ')' :: rest)) =
          '(' :: (arguments.chars ++ ')' :: rest) :=
        trimStart_of_stopsAt (stopsAt_isBlank_cons (by decide) _)
      refine ⟨[], rest, rfl, hitems, ?_⟩
      simp only [enclosedArguments, List.cons_append, List.append_assoc, List.nil_append,
        behindWord, htrim, enclosed?_append_of_notMem hclosing]

/-- Without a results clause, the words of a header are those of its items. -/
theorem headerWords_of_spells (hresults : ∀ item ∈ items, item.results? = none)
    (htext : Spells items text) : headerWords text = items.map (·.word) := by
  suffices hscan : ∀ before position,
      (occurrencesFrom headerWordShape before 0 position text).map (·.value) =
        items.map (·.word) from hscan none 0
  induction items generalizing text with
  | nil =>
      intro before position
      cases htext with
      | nil hspace =>
          have hquiet := quiet_of_isBlank headerWordShape_blank hspace []
          rw [hquiet.occurrencesFrom_eq_nil]
          rfl
  | cons item items ih =>
      intro before position
      obtain ⟨hitem, hothers⟩ := List.forall_mem_cons.mp hresults
      cases htext with
      | cons hspace hrest hitems =>
          rename_i space rest
          have hquiet := quiet_of_isBlank headerWordShape_blank hspace (item.chars ++ rest)
          obtain ⟨blanks, left, rfl, hleft, hread⟩ :=
            exists_headerWordShape_item hitem hrest hitems (space.getLast?.or before)
          obtain ⟨c, more, hchars, -⟩ := item.exists_cons
          have hpiece : item.chars ++ (blanks ++ left) = c :: ((more ++ blanks) ++ left) := by
            simp [hchars]
          rw [hpiece] at hread
          rw [hquiet, hpiece, occurrencesFrom_of_read hread, List.map_cons, List.map_cons]
          rw [ih hothers hleft]

/-! ## The results clause -/

theorem resultsShape_eq_some_iff {before : Option Char} {list : List Char} :
    resultsShape before text = some (list, rest) ↔
      (∀ c ∈ before, isWord c = false) ∧ ')' ∉ list ∧ ∃ space, (∀ c ∈ space, isBlank c = true) ∧
        text = "returns".toList ++ (space ++ '(' :: (list ++ ')' :: rest)) := by
  simp only [resultsShape, Option.bind_eq_bind, Option.bind_eq_some_iff, keyword?_eq_some_iff,
    enclosed?_eq_some_iff, trimStart_eq_iff]
  constructor
  · rintro ⟨behind, ⟨hbefore, rfl⟩, hlist, -, space, hspace, rfl⟩
    exact ⟨hbefore, hlist, space, hspace, rfl⟩
  · rintro ⟨hbefore, hlist, space, hspace, rfl⟩
    exact ⟨_, ⟨hbefore, rfl⟩, hlist, stopsAt_isBlank_cons (by decide) _, space, hspace, rfl⟩

theorem resultsShape_blank {c : Char} (hc : isBlank c = true) (before : Option Char)
    (rest : List Char) : resultsShape before (c :: rest) = none := by
  rw [Option.eq_none_iff_forall_ne_some]
  rintro ⟨list, left⟩ hread
  obtain ⟨-, -, space, -, htext⟩ := resultsShape_eq_some_iff.mp hread
  have hreserved : "returns" ∈ reservedWords := by decide
  have hstop := (isName_of_mem_reservedWords hreserved).stopsAt_isBlank
    (space ++ '(' :: (list ++ ')' :: left))
  rw [← htext] at hstop
  exact Bool.noConfusion (hc.symm.trans (hstop c rfl))

/-- Up to a parenthesis that closes, no results clause begins, since it would open one
first. -/
theorem quiet_resultsShape_closing {inside : List Char}
    (hinside : ∀ c ∈ inside, c ≠ '(' ∧ c ≠ ')') (rest : List Char) :
    Quiet resultsShape (inside ++ [')']) rest := by
  induction inside with
  | nil => exact passes_resultsShape.quiet_mark (by decide) rest
  | cons c more ih =>
      refine Quiet.cons (quiet_singleton fun before => ?_)
        (ih fun d hd => hinside d (List.mem_cons_of_mem c hd))
      rw [Option.eq_none_iff_forall_ne_some]
      rintro ⟨list, left⟩ hread
      obtain ⟨-, -, space, hspace, htext⟩ := resultsShape_eq_some_iff.mp hread
      -- The first parenthesis closes on the one side and opens on the other.
      let outside (c : Char) : Bool := c != '(' && c != ')'
      have hleft : (c :: (more ++ [')'] ++ rest)).dropWhile outside = ')' :: rest := by
        have hrun : ∀ d ∈ c :: more, outside d = true := by
          intro d hd
          simp [outside, hinside d hd]
        have hsplit : c :: (more ++ [')'] ++ rest) = (c :: more) ++ ')' :: rest := by simp
        rw [hsplit]
        exact dropWhile_append_of_stopsAt hrun (by simp [StopsAt, outside])
      have hright :
          ("returns".toList ++ (space ++ '(' :: (list ++ ')' :: left))).dropWhile outside =
          '(' :: (list ++ ')' :: left) := by
        have hrun : ∀ d ∈ "returns".toList ++ space, outside d = true := by
          intro d hd
          rcases List.mem_append.mp hd with hd | hd
          · have hword : ∀ d ∈ "returns".toList, outside d = true := forall_mem_of_all (by decide)
            exact hword d hd
          · have hblank := hspace d hd
            have hparens : isBlank '(' = false ∧ isBlank ')' = false := by decide
            simp only [outside, Bool.and_eq_true, bne_iff_ne, ne_eq]
            constructor <;> rintro rfl <;> simp [hparens] at hblank
        rw [← List.append_assoc]
        exact dropWhile_append_of_stopsAt hrun (by simp [StopsAt, outside])
      have hsame := (hleft.symm.trans (congrArg (List.dropWhile outside) htext)).trans hright
      exact absurd (List.cons.inj hsame).1 (by decide)

theorem quiet_resultsShape_enclosedArguments (arguments : Option Arguments) (rest : List Char) :
    Quiet resultsShape (enclosedArguments arguments) rest := by
  cases arguments with
  | none => exact Quiet.nil rest
  | some arguments =>
      exact passes_resultsShape.quiet_mark_cons (by decide)
        (quiet_resultsShape_closing arguments.free rest)

/-- No results clause is found in another item. -/
theorem quiet_resultsShape_item (hitem : item.results? = none)
    (hrest : ∀ c ∈ rest.head?, isBlank c = true) : Quiet resultsShape item.chars rest := by
  obtain ⟨arguments, htail⟩ := item.exists_tail_eq hitem
  rw [HeaderItem.chars, htail]
  refine Quiet.append ?_ (quiet_resultsShape_enclosedArguments arguments rest)
  have hstop : StopsAt isPlain (enclosedArguments arguments ++ rest) := fun c hc =>
    isPlain_of_isQualified_eq_false (stopsAt_enclosedArguments hrest arguments c hc)
  have hrun := item.isName_word.toIsRun
  refine passes_resultsShape.quiet_run hrun fun before => ?_
  rw [Option.eq_none_iff_forall_ne_some]
  intro read hread
  obtain ⟨-, key, hkey, c, more, heq, hc⟩ := ledBy_resultsShape hread
  obtain rfl := List.mem_singleton.mp hkey
  have hsame := hrun.eq_of_append_eq (isRun_of_mem_reservedWords (by decide)) hstop
    (stopsAt_isPlain_cons hc more) heq
  exact item.word_ne_returns hitem (String.toList_injective hsame.1)

theorem occurrences_resultsShape_eq_nil (hresults : ∀ item ∈ items, item.results? = none)
    (htext : Spells items text) : occurrences resultsShape text = [] := by
  suffices hquiet : Quiet resultsShape text [] from hquiet.occurrences_eq_nil
  induction htext with
  | nil hspace => exact quiet_of_isBlank resultsShape_blank hspace []
  | cons hspace hrest hitems ih =>
      obtain ⟨hitem, hothers⟩ := List.forall_mem_cons.mp hresults
      have hblanks := quiet_of_isBlank resultsShape_blank hspace
      refine Quiet.append (hblanks _) (Quiet.append ?_ (ih hothers))
      rw [List.append_nil]
      exact quiet_resultsShape_item hitem hrest

/-- The first results clause of a header stands between blanks or at its ends, nothing is
found in front of it, and a space in its place leaves the other items. -/
theorem exists_split_at_results {clause : ResultsClause} {before after : List HeaderItem}
    (hbefore : ∀ item ∈ before, item.results? = none)
    (htext : Spells (before ++ .results clause :: after) text) :
    ∃ front rest, text = front ++ ((HeaderItem.results clause).chars ++ rest) ∧
      (∀ c ∈ front.getLast?, isBlank c = true) ∧
      Quiet resultsShape front ((HeaderItem.results clause).chars ++ rest) ∧
      Spells (before ++ after) (front ++ ' ' :: rest) := by
  induction before generalizing text with
  | nil =>
      cases htext with
      | cons hspace hrest hitems =>
          rename_i space rest
          refine ⟨space, rest, rfl, fun c hc => hspace c (List.mem_of_getLast? hc),
            quiet_of_isBlank resultsShape_blank hspace _, ?_⟩
          exact (hitems.append_left isBlank_of_mem_space).append_left hspace
  | cons item before ih =>
      obtain ⟨hitem, hothers⟩ := List.forall_mem_cons.mp hbefore
      cases htext with
      | cons hspace hrest hitems =>
          rename_i space behind
          obtain ⟨front, rest, rfl, hlast, hquiet, hspells⟩ := ih hothers hitems
          -- Something stands between the two items, or no blank would.
          obtain ⟨c, more, rfl⟩ : ∃ c more, front = c :: more := by
            cases front with
            | cons c more => exact ⟨c, more, rfl⟩
            | nil =>
                have hstop := (HeaderItem.results clause).stopsAt_isBlank rest
                obtain ⟨c, more, hchars, -⟩ := (HeaderItem.results clause).exists_cons
                rw [List.nil_append, hchars] at hrest
                rw [hchars] at hstop
                exact absurd (hrest c rfl) (by simp [hstop c rfl])
          refine ⟨space ++ (item.chars ++ c :: more), rest, by simp, ?_, ?_, ?_⟩
          · rwa [List.getLast?_append_of_ne_nil _ (by simp),
              List.getLast?_append_of_ne_nil _ (List.cons_ne_nil c more)]
          · exact Quiet.append (quiet_of_isBlank resultsShape_blank hspace _)
              (Quiet.append (quiet_resultsShape_item hitem hrest) hquiet)
          · have hcons : Spells (item :: (before ++ after))
                (space ++ (item.chars ++ (c :: more ++ ' ' :: rest))) := .cons hspace hrest hspells
            simpa using hcons

/-- The results clause is cut out as a whole. -/
theorem exists_splitResults_of_spells {clause : ResultsClause} {before after : List HeaderItem}
    (hbefore : ∀ item ∈ before, item.results? = none)
    (htext : Spells (before ++ .results clause :: after) text) :
    ∃ left, splitResults text = (some clause.list, left) ∧ Spells (before ++ after) left := by
  obtain ⟨front, rest, rfl, hlast, hquiet, hspells⟩ := exists_split_at_results hbefore htext
  refine ⟨_, ?_, hspells⟩
  have hread : resultsShape (front.getLast?.or none)
      ((HeaderItem.results clause).chars ++ rest) = some (clause.list, rest) := by
    rw [Option.or_none]
    refine resultsShape_eq_some_iff.mpr ⟨fun c hc => isWord_of_isBlank (hlast c hc),
      clause.closing, clause.space, clause.blank, ?_⟩
    simp [HeaderItem.chars_results]
  obtain ⟨c, more, hchars, -⟩ := (HeaderItem.results clause).exists_cons
  have hlength : (HeaderItem.results clause).chars.length = more.length + 1 := by
    rw [hchars, List.length_cons]
  have hscan := hquiet none 0
  rw [hchars, List.cons_append] at hread hscan
  rw [occurrencesFrom_of_read hread] at hscan
  rw [splitResults, occurrences, hchars, List.cons_append, hscan]
  simp only [List.head?_cons, Nat.zero_add, List.take_left]
  rw [← List.cons_append, ← List.append_assoc, ← List.length_cons (a := c),
    ← List.length_append, List.drop_left]

/-! ## What a header says -/

theorem ofKeyword?_visibility_word (item : HeaderItem) :
    Visibility.ofKeyword? item.word = item.visibility? := by
  cases item with
  | visibility value => exact Visibility.ofKeyword?_keyword value
  | mutability value => cases value <;> rfl
  | modifier name arguments =>
      have hkeyword : ∀ visibility : Visibility, visibility.keyword ∈ headerKeywords := by
        rintro ⟨⟩ <;> decide
      refine List.find?_eq_none.mpr fun visibility _ heq => name.free ?_
      have hname : visibility.keyword = name.name := beq_iff_eq.mp heq
      exact hname ▸ hkeyword visibility
  | _ => rfl

theorem ofKeyword?_mutability_word (item : HeaderItem) :
    Mutability.ofKeyword? item.word = item.mutability? := by
  cases item with
  | visibility value => cases value <;> rfl
  | mutability value => exact Mutability.ofKeyword?_keyword value
  | modifier name arguments =>
      have hkeyword : ∀ mutability : Mutability, mutability.keyword ∈ headerKeywords := by
        rintro ⟨⟩ <;> decide
      refine List.find?_eq_none.mpr fun mutability _ heq => name.free ?_
      have hname : mutability.keyword = name.name := beq_iff_eq.mp heq
      exact hname ▸ hkeyword mutability
  | _ => rfl

theorem guard_isModifier_word (item : HeaderItem) :
    Option.guard isModifier item.word = item.modifier? := by
  have hvisibility := ofKeyword?_visibility_word item
  have hmutability := ofKeyword?_mutability_word item
  cases item with
  | modifier name arguments =>
      have hmarkers : ∀ word ∈ headerMarkers, word ∈ headerKeywords := by decide
      have hmarker : name.name ∉ headerMarkers := fun hmem => name.free (hmarkers _ hmem)
      have hmodifier : isModifier name.name = true := by
        simp only [HeaderItem.word, HeaderItem.visibility?] at hvisibility
        simp only [HeaderItem.word, HeaderItem.mutability?] at hmutability
        simp [isModifier, hvisibility, hmutability, hmarker]
      exact if_pos hmodifier
  | visibility value => cases value <;> rfl
  | mutability value => cases value <;> rfl
  | _ => rfl

/-- Once the results are cut out, the words say the rest. -/
theorem functionHeader_of_splitResults {list : Option (List Char)} {left : List Char}
    (hsplit : splitResults text = (list, left)) (hwords : headerWords left = items.map (·.word)) :
    functionHeader text =
      { visibility := (items.filterMap HeaderItem.visibility?).head?.getD .publicly
        mutability := (items.filterMap HeaderItem.mutability?).head?.getD .nonpayable
        outputs := (list.map parameters).getD []
        modifiers := (items.filterMap HeaderItem.modifier?).eraseDups } := by
  have hvisibility : Visibility.ofKeyword? ∘ (·.word) = HeaderItem.visibility? :=
    funext ofKeyword?_visibility_word
  have hmutability : Mutability.ofKeyword? ∘ (·.word) = HeaderItem.mutability? :=
    funext ofKeyword?_mutability_word
  have hmodifier : (Option.guard fun word => isModifier word) ∘ (·.word) = HeaderItem.modifier? :=
    funext guard_isModifier_word
  simp only [functionHeader, hsplit, hwords, List.findSome?_map, hvisibility, hmutability,
    List.head?_filterMap, ← List.filterMap_eq_filter, List.filterMap_map, hmodifier]

theorem functionHeader_eq_headerOfItems (honce : AtMostOnce items) (htext : Spells items text) :
    functionHeader text = headerOfItems items := by
  cases hfound : items.findSome? HeaderItem.results? with
  | none =>
      have hnone := List.findSome?_eq_none_iff.mp hfound
      have hsplit : splitResults text = (none, text) := by
        rw [splitResults, occurrences_resultsShape_eq_nil hnone htext]
        rfl
      rw [functionHeader_of_splitResults hsplit (headerWords_of_spells hnone htext)]
      simp only [headerOfItems, List.head?_filterMap, hfound, Option.map_none]
  | some clause =>
      obtain ⟨before, item, after, rfl, hitem, hbefore⟩ := List.findSome?_eq_some_iff.mp hfound
      obtain rfl : item = .results clause := by
        cases item with
        | results other => rw [Option.some.inj hitem]
        | _ => contradiction
      -- Where one clause is cut out, there is no second one.
      have hafter : after.filterMap HeaderItem.results? = [] := by
        have hlength := honce.results
        rw [List.filterMap_append, List.filterMap_cons_some hitem, List.length_append,
          List.length_cons] at hlength
        exact List.length_eq_zero_iff.mp (by omega)
      have hothers : ∀ item ∈ before ++ after, item.results? = none := by
        rintro item hmem
        rcases List.mem_append.mp hmem with hmem | hmem
        · exact hbefore item hmem
        · exact List.filterMap_eq_nil_iff.mp hafter item hmem
      obtain ⟨left, hsplit, hleft⟩ := exists_splitResults_of_spells hbefore htext
      rw [functionHeader_of_splitResults hsplit (headerWords_of_spells hothers hleft)]
      rw [headerOfItems, List.head?_filterMap (f := HeaderItem.results?), hfound]
      simp only [List.filterMap_append,
        List.filterMap_cons_none (f := HeaderItem.visibility?) (a := .results clause) rfl,
        List.filterMap_cons_none (f := HeaderItem.mutability?) (a := .results clause) rfl,
        List.filterMap_cons_none (f := HeaderItem.modifier?) (a := .results clause) rfl,
        Option.map_some]

/-! ## Headers in another order -/

/-- The same visibility, mutability and results, and the same modifiers in some order. -/
structure SameButOrder (header other : FunctionHeader) : Prop where
  visibility : header.visibility = other.visibility
  mutability : header.mutability = other.mutability
  outputs : header.outputs = other.outputs
  modifiers : header.modifiers.Perm other.modifiers

theorem head?_eq_of_perm {α : Type} {list other : List α} (hlength : list.length ≤ 1)
    (hperm : list.Perm other) : list.head? = other.head? := by
  match list with
  | [] => rw [hperm.nil_eq]
  | [a] => rw [List.perm_singleton.mp hperm.symm]

theorem sameButOrder_headerOfItems (honce : AtMostOnce items) (hperm : items.Perm others) :
    SameButOrder (headerOfItems items) (headerOfItems others) where
  visibility := by
    simp only [headerOfItems, head?_eq_of_perm honce.visibility (hperm.filterMap _)]
  mutability := by
    simp only [headerOfItems, head?_eq_of_perm honce.mutability (hperm.filterMap _)]
  outputs := by
    simp only [headerOfItems, head?_eq_of_perm honce.results (hperm.filterMap _)]
  modifiers := by
    refine (List.perm_ext_iff_of_nodup (FirstSeen.nodup_eraseDups _)
      (FirstSeen.nodup_eraseDups _)).mpr fun modifier => ?_
    simp only [List.mem_eraseDups]
    exact (hperm.filterMap _).mem_iff

theorem AtMostOnce.of_perm (honce : AtMostOnce items) (hperm : items.Perm others) :
    AtMostOnce others where
  visibility := (hperm.filterMap _).length_eq ▸ honce.visibility
  mutability := (hperm.filterMap _).length_eq ▸ honce.mutability
  results := (hperm.filterMap _).length_eq ▸ honce.results

/-- A header says what its items say, whatever their order, and the same items in another
order change at most the order of the modifiers. -/
theorem functionHeader_of_spells (honce : AtMostOnce items) (htext : Spells items text) :
    functionHeader text = headerOfItems items ∧
      ∀ {others other}, items.Perm others → Spells others other →
        SameButOrder (functionHeader text) (functionHeader other) := by
  have hread := functionHeader_eq_headerOfItems honce htext
  refine ⟨hread, fun hperm hother => ?_⟩
  rw [hread, functionHeader_eq_headerOfItems (honce.of_perm hperm) hother]
  exact sameButOrder_headerOfItems honce hperm

/-- Items with a space behind each. -/
theorem spells_flatMap_space (items : List HeaderItem) :
    Spells items (items.flatMap fun item => item.chars ++ [' ']) := by
  induction items with
  | nil => exact .nil (by simp)
  | cons item items ih =>
      have hcons : Spells (item :: items)
          ([] ++ (item.chars ++ ([' '] ++ items.flatMap fun item => item.chars ++ [' ']))) :=
        .cons (by simp)
          (fun c hc => isBlank_of_mem_space c (Option.some.inj hc ▸ List.mem_singleton_self ' '))
          (ih.append_left isBlank_of_mem_space)
      simpa using hcons

/-- The results stand in the middle, and arguments hold keywords and commas. -/
def sampleItems : List HeaderItem :=
  [.modifier ⟨"onlyRole", by decide, by decide, by decide⟩
      (some ⟨"ADMIN, view".toList, forall_mem_of_all (by decide)⟩),
    .override (some ⟨"Base, external".toList, forall_mem_of_all (by decide)⟩), .mutability .payable,
    .results ⟨[' '], "uint256 total, (bool".toList, forall_mem_of_all (by decide), by decide⟩,
    .virtual,
    .modifier ⟨"whenOpen", by decide, by decide, by decide⟩ none, .visibility .externally,
    .modifier ⟨"onlyRole", by decide, by decide, by decide⟩
      (some ⟨"returns".toList, forall_mem_of_all (by decide)⟩)]

theorem functionHeader_sampleItems :
    Spells sampleItems ("onlyRole(ADMIN, view) override(Base, external) payable returns " ++
        "(uint256 total, (bool) virtual whenOpen external onlyRole(returns) ").toList ∧
      functionHeader ("onlyRole(ADMIN, view) override(Base, external) payable returns " ++
          "(uint256 total, (bool) virtual whenOpen external onlyRole(returns) ").toList =
        { visibility := .externally
          mutability := .payable
          outputs := [{ name := "total", type := "uint256" }, { type := "(bool" }]
          modifiers := ["onlyRole", "whenOpen"] } ∧
      SameButOrder
        (functionHeader (sampleItems.flatMap fun item => item.chars ++ [' ']))
        (functionHeader (sampleItems.reverse.flatMap fun item => item.chars ++ [' '])) := by
  have honce : AtMostOnce sampleItems := ⟨by decide, by decide, by decide⟩
  have hspells := spells_flatMap_space sampleItems
  have htext : (sampleItems.flatMap fun item => item.chars ++ [' ']) =
      ("onlyRole(ADMIN, view) override(Base, external) payable returns " ++
        "(uint256 total, (bool) virtual whenOpen external onlyRole(returns) ").toList := by
    decide +kernel
  have hread := functionHeader_of_spells honce hspells
  have hsame := hread.2 (List.reverse_perm sampleItems).symm (spells_flatMap_space _)
  rw [htext] at hspells hread
  exact ⟨hspells, hread.1.trans (by decide +kernel), hsame⟩

end ContractAtlas.Source
