import ContractAtlas.Proofs.Extraction
import ContractAtlas.Proofs.Source.Leftmost
import ContractAtlas.Proofs.Source.Parts

/-!
# How functions and events are recognised

A function is the word `function`, a name, a parameter list, and a header up to the brace of
the body; an event is the word `event`, a name and a parameter list, perhaps the word
`anonymous`, and a semicolon.  These are grammars, and they leave nothing open: what may
follow a part can never belong to it, so a text is read in one way at most.  The functions
and the events of a source are the leftmost occurrences of the two grammars
(`recognised_of_ofSource`).
-/

namespace ContractAtlas.Source

open ContractAtlas.Text

variable {α : Type} {keyword : String} {before : Option Char}
  {text rest piece name parameters : List Char}

/-! ## The grammars -/

/-- A keyword, blanks, a name, perhaps blanks, and a parenthesised list.  Neither a blank nor
a parenthesis is a word character, so the name is a whole run of word characters. -/
inductive Opening (keyword : String) : List Char → List Char → List Char → Prop
  | intro {gap name space parameters : List Char}
      (hgap : gap ≠ []) (hblanks : ∀ c ∈ gap, isBlank c = true)
      (hname : name ≠ []) (hword : ∀ c ∈ name, isWord c = true)
      (hspace : ∀ c ∈ space, isBlank c = true) (hparameters : ')' ∉ parameters) :
      Opening keyword
        (keyword.toList ++ (gap ++ (name ++ (space ++ '(' :: (parameters ++ [')'])))))
        name parameters

/-- A function up to the brace that opens its body. -/
def FunctionPhrase : Grammar FunctionParts := fun piece parts =>
  ∃ opening, Opening "function" opening parts.name parts.parameters ∧
    (∀ c ∈ parts.header, endsStatement c = false) ∧ piece = opening ++ (parts.header ++ ['{'])

/-- The word that an anonymous event ends with. -/
def anonymousWord (isAnonymous : Bool) : List Char :=
  if isAnonymous then "anonymous".toList else []

/-- An event up to its semicolon. -/
def EventPhrase : Grammar EventParts := fun piece parts =>
  ∃ opening space last, Opening "event" opening parts.name parts.parameters ∧
    (∀ c ∈ space, isBlank c = true) ∧ (∀ c ∈ last, isBlank c = true) ∧
    piece = opening ++ (space ++ (anonymousWord parts.isAnonymous ++ (last ++ [';'])))

/-! ## Openings -/

/-- The part that functions and events have in common. -/
def opening? (keyword : String) : Shape (List Char × List Char) := fun before text => do
  let (name, rest) ← name? (← blanks? (← keyword? keyword before text))
  let (parameters, rest) ← enclosed? (trimStart rest)
  return ((name, parameters), rest)

theorem opening?_eq_some_iff :
    opening? keyword before text = some ((name, parameters), rest) ↔
      (∀ c ∈ before, isWord c = false) ∧
        ∃ piece, Opening keyword piece name parameters ∧ text = piece ++ rest := by
  constructor
  · intro hread
    simp only [opening?, Option.bind_eq_bind, Option.bind_eq_some_iff, Option.pure_def,
      Option.some.injEq, Prod.mk.injEq] at hread
    obtain ⟨behind, hkeyword, unspaced, hblanks, ⟨_, afterName⟩, hname, ⟨_, _⟩, henclosed,
      ⟨rfl, rfl⟩, rfl⟩ := hread
    obtain ⟨hbefore, rfl⟩ := keyword?_eq_some_iff.mp hkeyword
    obtain ⟨-, gap, hgap, hblank, rfl⟩ := blanks?_eq_some_iff.mp hblanks
    obtain ⟨hne, hword, -, rfl⟩ := name?_eq_some_iff.mp hname
    obtain ⟨hinside, htrim⟩ := enclosed?_eq_some_iff.mp henclosed
    obtain ⟨-, space, hspace, rfl⟩ := trimStart_eq_iff.mp htrim
    exact ⟨hbefore, _, .intro hgap hblank hne hword hspace hinside, by simp⟩
  · rintro ⟨hbefore, _, ⟨hgap, hblanks, hname, hword, hspace, hparameters⟩, rfl⟩
    rename_i gap space
    have hopen : StopsAt isBlank ('(' :: (parameters ++ ')' :: rest)) := by
      rintro _ ⟨⟩
      decide
    have hbehind : StopsAt isWord (space ++ '(' :: (parameters ++ ')' :: rest)) := by
      refine StopsAt.append_of_isBlank isWord_of_isBlank hspace ?_
      rintro _ ⟨⟩
      decide
    have hstart : StopsAt isBlank (name ++ (space ++ '(' :: (parameters ++ ')' :: rest))) := by
      obtain ⟨d, more, rfl⟩ := List.exists_cons_of_ne_nil hname
      rintro c ⟨⟩
      by_contra hblank
      have hnotWord := isWord_of_isBlank (by simpa using hblank)
      rw [hword d List.mem_cons_self] at hnotWord
      contradiction
    simp only [List.append_assoc, List.cons_append, List.nil_append, opening?,
      keyword?_eq_some_iff.mpr ⟨hbefore, rfl⟩,
      blanks?_eq_some_iff.mpr ⟨hstart, gap, hgap, hblanks, rfl⟩,
      name?_eq_some_iff.mpr ⟨hname, hword, hbehind, rfl⟩,
      trimStart_eq_iff.mpr ⟨hopen, space, hspace, rfl⟩,
      enclosed?_eq_some_iff.mpr ⟨hparameters, rfl⟩, Option.bind_eq_bind, Option.bind_some,
      Option.pure_def]

theorem Opening.ne_nil (hopening : Opening keyword piece name parameters) : piece ≠ [] := by
  cases hopening
  simp

/-! ## Functions -/

theorem functionShape_eq (before : Option Char) (text : List Char) :
    functionShape before text = (opening? "function" before text).bind fun read =>
      (upToBody? read.2).map fun body => (⟨read.1.1, read.1.2, body.1⟩, body.2) := by
  simp only [functionShape, opening?, Option.bind_eq_bind, Option.bind_assoc, Option.pure_def,
    Option.bind_some, Option.map_eq_bind]
  rfl

theorem recognises_functionShape : Recognises functionShape FunctionPhrase where
  read_iff := by
    intro before text parts rest
    rw [functionShape_eq]
    simp only [Option.bind_eq_some_iff, Option.map_eq_some_iff, Prod.exists, Prod.mk.injEq,
      opening?_eq_some_iff, upToBody?_eq_some_iff]
    constructor
    · rintro ⟨name, parameters, _, ⟨hbefore, opening, hopening, rfl⟩, header, _,
        ⟨hheader, rfl⟩, rfl, rfl⟩
      exact ⟨hbefore, _, ⟨opening, hopening, hheader, rfl⟩, by simp⟩
    · rintro ⟨hbefore, _, ⟨opening, hopening, hheader, rfl⟩, rfl⟩
      exact ⟨_, _, _, ⟨hbefore, opening, hopening, by simp⟩, _, _, ⟨hheader, rfl⟩, rfl, rfl⟩
  ne_nil := by
    rintro _ _ ⟨opening, hopening, -, rfl⟩
    exact List.append_ne_nil_of_left_ne_nil hopening.ne_nil _

/-! ## Events -/

/-- The end of an event: perhaps the word `anonymous`, and the semicolon. -/
def eventEnd? (text : List Char) : Option (Bool × List Char) :=
  match after? "anonymous" (trimStart text) with
  | some rest => (mark? ';' (trimStart rest)).map (true, ·)
  | none => (mark? ';' (trimStart text)).map (false, ·)

theorem eventShape_eq (before : Option Char) (text : List Char) :
    eventShape before text = (opening? "event" before text).bind fun read =>
      (eventEnd? read.2).map fun ending => (⟨read.1.1, read.1.2, ending.1⟩, ending.2) := by
  simp only [eventShape, opening?, Option.bind_eq_bind, Option.bind_assoc, Option.pure_def,
    Option.bind_some]
  congr 1
  funext behind
  congr 1
  funext unspaced
  congr 1
  funext named
  congr 1
  funext list
  rw [eventEnd?]
  cases after? "anonymous" (trimStart list.2) <;>
    simp only [Option.map_eq_bind, Option.bind_assoc, Function.comp_def, Option.bind_some]

theorem mark?_trimStart_eq_some_iff {mark : Char} (hmark : isBlank mark = false) :
    mark? mark (trimStart text) = some rest ↔
      ∃ space, (∀ c ∈ space, isBlank c = true) ∧ text = space ++ mark :: rest := by
  rw [mark?_eq_some_iff, trimStart_eq_iff]
  constructor
  · rintro ⟨-, space, hspace, rfl⟩
    exact ⟨space, hspace, rfl⟩
  · rintro ⟨space, hspace, rfl⟩
    refine ⟨?_, space, hspace, rfl⟩
    rintro _ ⟨⟩
    exact hmark

theorem after?_trimStart_eq_some_iff {word : String} (hword : startsVisibly word = true) :
    after? word (trimStart text) = some rest ↔
      ∃ space, (∀ c ∈ space, isBlank c = true) ∧ text = space ++ (word.toList ++ rest) := by
  rw [after?_eq_some_iff, trimStart_eq_iff]
  constructor
  · rintro ⟨-, space, hspace, rfl⟩
    exact ⟨space, hspace, rfl⟩
  · rintro ⟨space, hspace, rfl⟩
    refine ⟨?_, space, hspace, rfl⟩
    obtain ⟨d, more, hchars, hvisible⟩ := exists_of_startsVisibly hword
    rw [hchars]
    rintro _ ⟨⟩
    exact hvisible

theorem eventEnd?_eq_some_iff {isAnonymous : Bool} :
    eventEnd? text = some (isAnonymous, rest) ↔
      ∃ space last, (∀ c ∈ space, isBlank c = true) ∧ (∀ c ∈ last, isBlank c = true) ∧
        text = space ++ (anonymousWord isAnonymous ++ (last ++ ';' :: rest)) := by
  constructor
  · intro hread
    rw [eventEnd?] at hread
    split at hread
    next behind hword =>
      obtain ⟨left, hmark, heq⟩ := Option.map_eq_some_iff.mp hread
      obtain ⟨rfl, rfl⟩ := Prod.mk.inj heq
      obtain ⟨space, hspace, rfl⟩ := (after?_trimStart_eq_some_iff (by decide)).mp hword
      obtain ⟨last, hlast, rfl⟩ := (mark?_trimStart_eq_some_iff (by decide)).mp hmark
      exact ⟨space, last, hspace, hlast, rfl⟩
    next =>
      obtain ⟨left, hmark, heq⟩ := Option.map_eq_some_iff.mp hread
      obtain ⟨rfl, rfl⟩ := Prod.mk.inj heq
      obtain ⟨space, hspace, rfl⟩ := (mark?_trimStart_eq_some_iff (by decide)).mp hmark
      exact ⟨space, [], hspace, by simp, rfl⟩
  · rintro ⟨space, last, hspace, hlast, rfl⟩
    cases isAnonymous with
    | true =>
        have hword : after? "anonymous"
            (trimStart (space ++ ("anonymous".toList ++ (last ++ ';' :: rest)))) =
              some (last ++ ';' :: rest) :=
          (after?_trimStart_eq_some_iff (by decide)).mpr ⟨space, hspace, rfl⟩
        have hmark : mark? ';' (trimStart (last ++ ';' :: rest)) = some rest :=
          (mark?_trimStart_eq_some_iff (by decide)).mpr ⟨last, hlast, rfl⟩
        simp only [eventEnd?, anonymousWord, if_true, hword, hmark, Option.map_some]
    | false =>
        have hblank : ∀ c ∈ space ++ last, isBlank c = true := by
          simp only [List.mem_append]
          rintro c (hc | hc)
          · exact hspace c hc
          · exact hlast c hc
        have hsemicolon : StopsAt isBlank (';' :: rest) := by
          rintro _ ⟨⟩
          decide
        have htrim : trimStart (space ++ (last ++ ';' :: rest)) = ';' :: rest :=
          trimStart_eq_iff.mpr ⟨hsemicolon, space ++ last, hblank, by simp⟩
        have hword : after? "anonymous" (';' :: rest) = none := by
          rw [after?, if_neg (by simp)]
        simp only [eventEnd?, anonymousWord, Bool.false_eq_true, if_false, List.nil_append, htrim,
          hword, mark?, if_true, Option.map_some]

theorem recognises_eventShape : Recognises eventShape EventPhrase where
  read_iff := by
    intro before text parts rest
    rw [eventShape_eq]
    simp only [Option.bind_eq_some_iff, Option.map_eq_some_iff, Prod.exists, Prod.mk.injEq,
      opening?_eq_some_iff, eventEnd?_eq_some_iff]
    constructor
    · rintro ⟨name, parameters, _, ⟨hbefore, opening, hopening, rfl⟩, isAnonymous, _,
        ⟨space, last, hspace, hlast, rfl⟩, rfl, rfl⟩
      refine ⟨hbefore, _, ⟨opening, space, last, hopening, hspace, hlast, rfl⟩, ?_⟩
      simp only [List.append_assoc, List.singleton_append]
    · rintro ⟨hbefore, _, ⟨opening, space, last, hopening, hspace, hlast, rfl⟩, rfl⟩
      refine ⟨parts.name, parts.parameters, _, ⟨hbefore, opening, hopening, List.append_assoc ..⟩,
        parts.isAnonymous, rest, ⟨space, last, hspace, hlast, ?_⟩, rfl, rfl⟩
      simp only [List.append_assoc, List.singleton_append]
  ne_nil := by
    rintro _ _ ⟨opening, space, last, hopening, -, -, rfl⟩
    exact List.append_ne_nil_of_left_ne_nil hopening.ne_nil _

/-! ## The functions and events of a source -/

/-- Declarations are recognised by a grammar: they are made of its leftmost occurrences in
their order, nothing but these is leftmost, and an occurrence has one end for its start. -/
structure RecognisedBy {δ : Type} (grammar : Grammar α) (declare : Occurrence α → δ)
    (offset : δ → Nat) (text : List Char) (declarations : List δ) : Prop where
  leftmost : ∃ found, (∀ other, Leftmost (StandsIn grammar text) 0 other ↔ other = found) ∧
    declarations = found.map declare
  one_end : ∀ left right, StandsIn grammar text left → StandsIn grammar text right →
    left.start = right.start → left = right
  increasing : declarations.Pairwise fun left right => offset left < offset right

theorem Recognises.recognisedBy {δ : Type} {shape : Shape α} {grammar : Grammar α}
    (hshape : Recognises shape grammar) (declare : Occurrence α → δ) (offset : δ → Nat)
    (hoffset : ∀ found, offset (declare found) = found.start) (text : List Char) :
    RecognisedBy grammar declare offset text ((occurrences shape text).map declare) where
  leftmost := by
    have hsame : StandsIn grammar text = ReadsIn shape text :=
      funext fun found => propext (hshape.standsIn_iff text found)
    rw [hsame]
    exact ⟨_, fun _ => hshape.consumes.leftmost_iff, rfl⟩
  one_end := by
    simp only [hshape.standsIn_iff]
    exact fun _ _ => ReadsIn.eq_of_start_eq
  increasing := by
    rw [List.pairwise_map]
    apply (pairwise_precedes_occurrences shape text).imp
    intro left right hprecedes
    rw [hoffset, hoffset]
    exact hprecedes.1

end ContractAtlas.Source

namespace ContractAtlas.Extraction

open ContractAtlas.Source

/-- The functions and the events of a source are what the grammars of functions and events
recognise in its text. -/
theorem recognised_of_ofSource {text : String} {extraction : Extraction}
    (hextract : ofSource text = .ok extraction) :
    RecognisedBy FunctionPhrase declaredFunction FunctionDeclaration.offset text.toList
        extraction.functions ∧
      RecognisedBy EventPhrase declaredEvent EventDeclaration.offset text.toList
        extraction.events := by
  rw [ofDeclarations_eq_ok (ofDeclarations_of_ofSource hextract)]
  constructor
  · exact recognises_functionShape.recognisedBy declaredFunction FunctionDeclaration.offset
      (fun _ => rfl) text.toList
  · exact recognises_eventShape.recognisedBy declaredEvent EventDeclaration.offset
      (fun _ => rfl) text.toList

/-- Functions and events that begin within the parameter lists of others, a function without
a body, and words that only contain a keyword. -/
def nestedSource : String :=
  "event E(event F(uint x) anonymous; function f(function g(uint a) payable { } " ++
    "function h(); dysfunction k() { } function l\n(\n) { } event G(uint indexed y);"

theorem recognised_nestedSource :
    ∃ extraction, ofSource nestedSource = .ok extraction ∧
      extraction.functions.map (·.name) = ["f", "l"] ∧
      extraction.events.map (fun event => (event.name, event.isAnonymous)) =
        [("E", true), ("G", false)] ∧
      RecognisedBy FunctionPhrase declaredFunction FunctionDeclaration.offset
        nestedSource.toList extraction.functions ∧
      RecognisedBy EventPhrase declaredEvent EventDeclaration.offset
        nestedSource.toList extraction.events := by
  have hnames : (ofSource nestedSource).map (fun extraction =>
      (extraction.functions.map (·.name),
        extraction.events.map fun event => (event.name, event.isAnonymous))) =
      .ok (["f", "l"], [("E", true), ("G", false)]) := by decide +kernel
  obtain ⟨extraction, hextract, hpair⟩ := exists_of_map_eq_ok hnames
  obtain ⟨hfunctions, hevents⟩ := Prod.mk.inj hpair
  obtain ⟨hfunction, hevent⟩ := recognised_of_ofSource hextract
  exact ⟨extraction, hextract, hfunctions, hevents, hfunction, hevent⟩

end ContractAtlas.Extraction
