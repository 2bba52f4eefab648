import ContractAtlas.Proofs.Canonical.Lists
import ContractAtlas.Proofs.Extraction
import ContractAtlas.Proofs.Text.LeadingBlanks

/-!
# Parents with constructor arguments

The arguments that a contract hands to its parents are left out before the list of parents is
split at its commas.  What is left out reaches from a parenthesis to the first one that
closes, so an argument list without inner parentheses disappears as a whole.  Of a list with
a call inside, everything behind the call stays, and the closing parenthesis of the list with
it: what stands there up to the next comma is taken for a part of the parent's name, and what
follows that comma for further parents.

Balanced lists do not reach into one another, so each parent is read as if it stood alone
(`exists_ofSource_heading`).
-/

namespace ContractAtlas.Source

open ContractAtlas.Canonical ContractAtlas.Text

/-! ## Headings -/

/-- Whether a text closes every parenthesis that it opens, and `depth` more that were opened
before it. -/
def closes (depth : Nat) : List Char → Bool
  | [] => depth == 0
  | c :: rest =>
    if c = '(' then closes (depth + 1) rest
    else if c = ')' then depth != 0 && closes (depth - 1) rest
    else closes depth rest

/-- Arguments of a constructor: calls in them may nest, and no body begins. -/
structure ConstructorArguments where
  chars : List Char
  balanced : closes 0 chars = true
  free : ';' ∉ chars ∧ '{' ∉ chars

/-- A parent in the list behind `is`. -/
structure Parent where
  name : String
  arguments : Option ConstructorArguments
  starts : name.toList.head?.any (fun c => c.isAlpha || c == '_') = true
  continues : name.toList.all isPlain = true

namespace Parent

/-- The arguments in their parentheses, if there are any. -/
def argumentList (parent : Parent) : List Char :=
  match parent.arguments with
  | some arguments => '(' :: (arguments.chars ++ [')'])
  | none => []

def chars (parent : Parent) : List Char :=
  parent.name.toList ++ parent.argumentList

/-- No parenthesis is opened among the arguments. -/
def Flat (parent : Parent) : Prop :=
  ∀ arguments ∈ parent.arguments, '(' ∉ arguments.chars

/-- What stands behind the first closing parenthesis, without the argument lists in it. -/
def behind (parent : Parent) : List Char :=
  withoutArguments 0 (parent.argumentList.dropWhile (· ≠ ')')).tail

def upToComma (parent : Parent) : List Char :=
  parent.behind.takeWhile (· ≠ ',')

def pastComma (parent : Parent) : List Char :=
  (parent.behind.dropWhile (· ≠ ',')).tail

end Parent

/-- A contract with parents and an empty body. -/
def heading (name : String) (items : List Parent) : String :=
  "contract " ++ name ++ " is " ++ String.ofList (commaSeparated (items.map (·.chars))) ++
    " \x7b \x7d"

/-- The names in a list without arguments. -/
def parentNames (list : List Char) : List String :=
  ((list.splitOn ',').map trim).filter
    (fun parent => !parent.isEmpty && parent.all isQualified) |>.map String.ofList

/-- The names that are listed for a parent that stands alone. -/
def Parent.listed (parent : Parent) : List String :=
  parents parent.chars

/-- How the names that are listed for a contract come from its parents. -/
structure ListsParents (items : List Parent) (names : List String) : Prop where
  each : names = items.flatMap (·.listed)
  all : (∀ parent ∈ items, parent.Flat) → names = items.map (·.name)
  flat : ∀ parent ∈ items, parent.Flat → parent.listed = [parent.name]
  parts : ∀ parent ∈ items, parent.listed =
    parentNames (parent.name.toList ++ parent.upToComma) ++ parentNames parent.pastComma
  own : ∀ parent ∈ items, parentNames (parent.name.toList ++ parent.upToComma) = [parent.name] ↔
    ∀ c ∈ parent.upToComma, isBlank c = true
  lost : ∀ parent ∈ items, ¬ parent.Flat → ',' ∉ parent.behind → parent.listed = []

variable {piece left rest inside text : List Char} {depth : Nat}

/-! ## Arguments left out -/

theorem withoutArguments_skip (piece rest : List Char) :
    withoutArguments piece.length (piece ++ rest) = withoutArguments 0 rest := by
  induction piece with
  | nil => rfl
  | cons c piece ih => exact ih

theorem withoutArguments_cons {c : Char} (hc : c ≠ '(') (rest : List Char) :
    withoutArguments 0 (c :: rest) = c :: withoutArguments 0 rest := by
  rw [withoutArguments, enclosed?_eq_none hc]

theorem withoutArguments_enclosed (hinside : ')' ∉ inside) (rest : List Char) :
    withoutArguments 0 ('(' :: (inside ++ ')' :: rest)) = withoutArguments 0 rest := by
  have hlength : (inside ++ ')' :: rest).length - rest.length = (inside ++ [')']).length := by
    simp only [List.length_append, List.length_cons, List.length_nil]
    omega
  have hskip := withoutArguments_skip (inside ++ [')']) rest
  rw [List.append_assoc, List.singleton_append] at hskip
  simp only [withoutArguments, enclosed?_append_of_notMem hinside, hlength, hskip]

/-- Without its argument lists, a piece is what is left of it, and no list is open at its
end. -/
inductive LeavesOut : List Char → List Char → Prop
  | nil : LeavesOut [] []
  | keep {c : Char} {piece left : List Char} (hc : c ≠ '(') (hpiece : LeavesOut piece left) :
      LeavesOut (c :: piece) (c :: left)
  | skip {inside piece left : List Char} (hinside : ')' ∉ inside)
      (hpiece : LeavesOut piece left) : LeavesOut ('(' :: (inside ++ ')' :: piece)) left

namespace LeavesOut

theorem withoutArguments_append (hpiece : LeavesOut piece left) (rest : List Char) :
    withoutArguments 0 (piece ++ rest) = left ++ withoutArguments 0 rest := by
  induction hpiece with
  | nil => rfl
  | keep hc _ ih => rw [List.cons_append, withoutArguments_cons hc, ih, List.cons_append]
  | skip hinside _ ih =>
      rw [List.cons_append, List.append_assoc, List.cons_append,
        withoutArguments_enclosed hinside, ih]

theorem withoutArguments_eq (hpiece : LeavesOut piece left) : withoutArguments 0 piece = left := by
  have hread := hpiece.withoutArguments_append []
  rwa [List.append_nil, withoutArguments, List.append_nil] at hread

theorem append {other more : List Char} (hpiece : LeavesOut piece left)
    (hother : LeavesOut other more) : LeavesOut (piece ++ other) (left ++ more) := by
  induction hpiece with
  | nil => exact hother
  | keep hc _ ih => exact ih.keep hc
  | skip hinside _ ih =>
      rw [List.cons_append, List.append_assoc, List.cons_append]
      exact ih.skip hinside

theorem of_notMem (hpiece : '(' ∉ piece) : LeavesOut piece piece := by
  induction piece with
  | nil => exact .nil
  | cons c piece ih =>
      obtain ⟨hc, hpiece⟩ := List.ne_and_not_mem_of_not_mem_cons hpiece
      exact (ih hpiece).keep hc.symm

end LeavesOut

/-! ## Balanced texts -/

theorem closes_cons {c : Char} (hopen : c ≠ '(') (hclose : c ≠ ')') :
    closes depth (c :: rest) = closes depth rest := by
  rw [closes, if_neg hopen, if_neg hclose]

/-- Without a closing parenthesis none can have been opened. -/
theorem eq_zero_of_closes (hcloses : closes depth text = true) (hfree : ')' ∉ text) :
    depth = 0 ∧ '(' ∉ text := by
  induction text generalizing depth with
  | nil => exact ⟨by simpa [closes] using hcloses, List.not_mem_nil⟩
  | cons c rest ih =>
      obtain ⟨hclose, hrest⟩ := List.ne_and_not_mem_of_not_mem_cons hfree
      by_cases hopen : c = '('
      · rw [closes, if_pos hopen] at hcloses
        exact absurd (ih hcloses hrest).1 (Nat.succ_ne_zero depth)
      · rw [closes_cons hopen hclose.symm] at hcloses
        obtain ⟨hdepth, hnone⟩ := ih hcloses hrest
        exact ⟨hdepth, List.not_mem_cons_of_ne_of_not_mem (Ne.symm hopen) hnone⟩

/-- At the outermost depth nothing is closed that was not opened. -/
theorem notMem_of_closes_zero (hcloses : closes 0 text = true) (hfree : '(' ∉ text) :
    ')' ∉ text := by
  induction text with
  | nil => exact List.not_mem_nil
  | cons c rest ih =>
      obtain ⟨hopen, hrest⟩ := List.ne_and_not_mem_of_not_mem_cons hfree
      have hclose : c ≠ ')' := by
        rintro rfl
        contradiction
      rw [closes_cons hopen.symm hclose] at hcloses
      exact List.not_mem_cons_of_ne_of_not_mem hclose.symm (ih hcloses hrest)

theorem exists_closes_of_cons {c : Char} (hcloses : closes depth (c :: rest) = true) :
    ∃ inner, closes inner rest = true := by
  rw [closes] at hcloses
  split at hcloses
  · exact ⟨_, hcloses⟩
  · split at hcloses
    · exact ⟨_, (Bool.and_eq_true_iff.mp hcloses).2⟩
    · exact ⟨_, hcloses⟩

theorem exists_closes_of_append (hcloses : closes depth (piece ++ rest) = true) :
    ∃ inner, closes inner rest = true := by
  induction piece generalizing depth with
  | nil => exact ⟨depth, hcloses⟩
  | cons c piece ih =>
      obtain ⟨inner, hpiece⟩ := exists_closes_of_cons hcloses
      exact ih hpiece

theorem closes_append_closing (hcloses : closes depth text = true) :
    closes (depth + 1) (text ++ [')']) = true := by
  induction text generalizing depth with
  | nil =>
      rw [closes, beq_iff_eq] at hcloses
      rw [hcloses]
      rfl
  | cons c rest ih =>
      rw [closes] at hcloses
      rw [List.cons_append, closes]
      split at hcloses
      next hopen => rw [if_pos hopen, ih hcloses]
      next hopen =>
        rw [if_neg hopen]
        split at hcloses
        next hclose =>
          -- What closes here had been opened, so one depth further out it is not the last one.
          obtain ⟨hdepth, hrest⟩ := Bool.and_eq_true_iff.mp hcloses
          obtain ⟨outer, rfl⟩ := Nat.exists_eq_succ_of_ne_zero (bne_iff_ne.mp hdepth)
          rw [if_pos hclose]
          exact ih hrest
        next hclose => rw [if_neg hclose, ih hcloses]

/-- Whatever is open where a balanced text is entered, no argument list that begins in the
rest is open at its end. -/
theorem exists_leavesOut_of_closes (text : List Char) {depth : Nat}
    (hcloses : closes depth text = true) : ∃ left, LeavesOut text left := by
  match text with
  | [] => exact ⟨[], .nil⟩
  | c :: rest =>
      obtain ⟨next, hrest⟩ := exists_closes_of_cons hcloses
      by_cases hopen : c = '('
      · subst hopen
        have hmem : ')' ∈ rest := by
          by_contra hfree
          rw [closes, if_pos rfl] at hcloses
          exact absurd (eq_zero_of_closes hcloses hfree).1 (Nat.succ_ne_zero depth)
        obtain ⟨inside, more, heq, hinside⟩ := List.eq_append_cons_of_mem hmem
        have hlength : more.length < rest.length := by
          rw [heq, List.length_append, List.length_cons]
          omega
        obtain ⟨outer, hclosing⟩ := exists_closes_of_append (heq ▸ hrest)
        obtain ⟨inner, hmore⟩ := exists_closes_of_cons hclosing
        obtain ⟨left, hleft⟩ := exists_leavesOut_of_closes more hmore
        exact ⟨left, heq ▸ hleft.skip hinside⟩
      · obtain ⟨left, hleft⟩ := exists_leavesOut_of_closes rest hrest
        exact ⟨c :: left, hleft.keep hopen⟩
termination_by text.length
decreasing_by all_goals simp_wf <;> omega

/-- A balanced text behind the first parenthesis that closes in it. -/
theorem exists_split_at_closing (hcloses : closes depth text = true) (hmem : ')' ∈ text) :
    ∃ inside more left, text = inside ++ ')' :: more ∧ ')' ∉ inside ∧ LeavesOut more left := by
  obtain ⟨inside, more, rfl, hinside⟩ := List.eq_append_cons_of_mem hmem
  obtain ⟨outer, hclosing⟩ := exists_closes_of_append hcloses
  obtain ⟨inner, hmore⟩ := exists_closes_of_cons hclosing
  obtain ⟨left, hleft⟩ := exists_leavesOut_of_closes more hmore
  exact ⟨inside, more, left, rfl, hinside, hleft⟩

theorem dropWhile_closing (hinside : ')' ∉ inside) (rest : List Char) :
    ('(' :: (inside ++ ')' :: rest)).dropWhile (· ≠ ')') = ')' :: rest := by
  have hrun : ∀ c ∈ '(' :: inside, decide (c ≠ ')') = true := by
    intro c hc
    rcases List.mem_cons.mp hc with rfl | hc
    · decide
    · exact decide_eq_true fun heq => hinside (heq ▸ hc)
  rw [← List.cons_append]
  exact dropWhile_append_of_stopsAt hrun (by simp [StopsAt])

/-! ## Names in lists -/

theorem parentNames_append_comma (list other : List Char) :
    parentNames (list ++ ',' :: other) = parentNames list ++ parentNames other := by
  simp only [parentNames, List.splitOn_eq_splitOnP,
    List.splitOnP_append_cons list other (p := (· == ',')) (beq_self_eq_true ','),
    List.map_append, List.filter_append]

theorem parentNames_space (list : List Char) : parentNames (' ' :: list) = parentNames list := by
  rw [parentNames, map_splitOn_space trim_space, ← parentNames]

theorem parentNames_of_notMem {list : List Char} (hcomma : ',' ∉ list) :
    parentNames list =
      if !(trim list).isEmpty && (trim list).all isQualified then [String.ofList (trim list)]
      else [] := by
  have hsingle : list.splitOn ',' = [list] := by
    rw [List.splitOn_eq_splitOnP]
    exact List.splitOnP_eq_singleton fun c hc =>
      beq_eq_false_iff_ne.mpr fun heq => hcomma (heq ▸ hc)
  rw [parentNames, hsingle, List.map_singleton, List.filter_singleton]
  cases !(trim list).isEmpty && (trim list).all isQualified <;> rfl

theorem parentNames_append_space (list : List Char) :
    parentNames (list ++ [' ']) = parentNames list := by
  by_cases hcomma : ',' ∈ list
  · obtain ⟨first, others, rfl, -⟩ := List.eq_append_cons_of_mem hcomma
    rw [List.append_assoc, List.cons_append, parentNames_append_comma,
      parentNames_append_space others, ← parentNames_append_comma]
  · have hcomma' : ',' ∉ list ++ [' '] := by simpa using hcomma
    rw [parentNames_of_notMem hcomma', parentNames_of_notMem hcomma, trim_append_space]
termination_by list.length

/-! ## One parent -/

namespace Parent

variable {parent : Parent}

theorem isName (parent : Parent) : IsName parent.name.toList :=
  isName_of_starts parent.starts parent.continues

theorem leavesOut (parent : Parent) :
    LeavesOut parent.chars (parent.name.toList ++ parent.behind) := by
  have hname : LeavesOut parent.name.toList parent.name.toList := by
    refine LeavesOut.of_notMem fun hmem => ?_
    exact absurd (parent.isName.plain _ hmem) (by decide)
  refine hname.append ?_
  rw [behind, argumentList]
  split
  next arguments _ =>
    obtain ⟨inside, more, left, heq, hinside, hleft⟩ := exists_split_at_closing
      (closes_append_closing arguments.balanced) (List.mem_append_right _ List.mem_cons_self)
    rw [heq, dropWhile_closing hinside, List.tail_cons, hleft.withoutArguments_eq]
    exact hleft.skip hinside
  next => exact .nil

theorem listed_eq_parentNames (parent : Parent) :
    parent.listed = parentNames (parent.name.toList ++ parent.behind) := by
  rw [listed, parents, parent.leavesOut.withoutArguments_eq, parentNames]

/-- Of arguments without inner parentheses nothing stays. -/
theorem behind_of_flat (hflat : parent.Flat) : parent.behind = [] := by
  rw [behind, argumentList]
  split
  next arguments harguments =>
    have hfree := notMem_of_closes_zero arguments.balanced (hflat arguments harguments)
    rw [dropWhile_closing hfree]
    rfl
  next => rfl

/-- Behind a call among the arguments, their closing parenthesis stays. -/
theorem exists_behind_eq (hflat : ¬ parent.Flat) : ∃ left, parent.behind = left ++ [')'] := by
  obtain ⟨arguments, harguments, hopen⟩ :
      ∃ arguments, parent.arguments = some arguments ∧ '(' ∈ arguments.chars := by
    simpa [Flat] using hflat
  have hmem : ')' ∈ arguments.chars := by
    by_contra hfree
    exact (eq_zero_of_closes arguments.balanced hfree).2 hopen
  obtain ⟨inside, more, left, heq, hinside, hleft⟩ :=
    exists_split_at_closing arguments.balanced hmem
  have hclosing : LeavesOut [')'] [')'] := .of_notMem (by decide)
  have hlist : parent.argumentList = '(' :: (inside ++ ')' :: (more ++ [')'])) := by
    simp [argumentList, harguments, heq]
  refine ⟨left, ?_⟩
  rw [behind, hlist, dropWhile_closing hinside, List.tail_cons]
  exact (hleft.append hclosing).withoutArguments_eq

theorem upToComma_append (hcomma : ',' ∈ parent.behind) :
    parent.behind = parent.upToComma ++ ',' :: parent.pastComma := by
  obtain ⟨first, more, heq, hfirst⟩ := List.eq_append_cons_of_mem hcomma
  have hrun : ∀ c ∈ first, decide (c ≠ ',') = true := fun c hc =>
    decide_eq_true fun hsame => hfirst (hsame ▸ hc)
  have hstop : StopsAt (fun c => decide (c ≠ ',')) (',' :: more) := by simp [StopsAt]
  rw [upToComma, pastComma, heq, takeWhile_append_of_stopsAt hrun hstop,
    dropWhile_append_of_stopsAt hrun hstop, List.tail_cons]

theorem upToComma_of_notMem (hcomma : ',' ∉ parent.behind) :
    parent.upToComma = parent.behind ∧ parent.pastComma = [] := by
  have hrun : ∀ c ∈ parent.behind, decide (c ≠ ',') = true := fun c hc =>
    decide_eq_true fun heq => hcomma (heq ▸ hc)
  refine ⟨List.takeWhile_eq_self_iff.mpr hrun, ?_⟩
  rw [pastComma, List.dropWhile_eq_nil_iff.mpr hrun, List.tail_nil]

theorem listed_eq (parent : Parent) :
    parent.listed =
      parentNames (parent.name.toList ++ parent.upToComma) ++ parentNames parent.pastComma := by
  rw [listed_eq_parentNames]
  by_cases hcomma : ',' ∈ parent.behind
  · rw [← parentNames_append_comma, List.append_assoc, ← upToComma_append hcomma]
  · obtain ⟨hup, hpast⟩ := upToComma_of_notMem hcomma
    have hnil : parentNames [] = [] := by decide
    rw [hup, hpast, hnil, List.append_nil]

theorem notMem_name_append {more : List Char} (parent : Parent) (hmore : ',' ∉ more) :
    ',' ∉ parent.name.toList ++ more := by
  intro hmem
  rcases List.mem_append.mp hmem with hmem | hmem
  · exact absurd (parent.isName.plain _ hmem) (by decide)
  · exact hmore hmem

/-- The own name of a parent is listed if nothing but blanks stands up to the next comma. -/
theorem parentNames_upToComma (parent : Parent) :
    parentNames (parent.name.toList ++ parent.upToComma) = [parent.name] ↔
      ∀ c ∈ parent.upToComma, isBlank c = true := by
  have hcomma : ',' ∉ parent.name.toList ++ parent.upToComma :=
    parent.notMem_name_append fun hmem => by simpa using List.mem_takeWhile_imp hmem
  have hstart : trimStart (parent.name.toList ++ parent.upToComma) =
      parent.name.toList ++ parent.upToComma :=
    trimStart_of_stopsAt (parent.isName.stopsAt_isBlank _)
  rw [parentNames_of_notMem hcomma, trim, hstart]
  constructor
  · intro hlisted
    split at hlisted
    · have hname : trimEnd (parent.name.toList ++ parent.upToComma) = parent.name.toList := by
        have hread := List.head_eq_of_cons_eq hlisted
        exact String.ofList_injective (hread.trans String.ofList_toList.symm)
      obtain ⟨space, hspace, htext⟩ :=
        exists_eq_trimEnd_append (parent.name.toList ++ parent.upToComma)
      rw [hname] at htext
      exact List.append_cancel_left htext ▸ hspace
    · contradiction
  · intro hblank
    have hall : parent.name.toList.all isQualified = true :=
      List.all_eq_true.mpr fun c hc => parent.isName.isQualified hc
    have hne : parent.name.toList.isEmpty = false := by simpa using parent.isName.ne_nil
    rw [trimEnd_append_of_isBlank hblank, parent.isName.trimEnd_eq, hall, hne, String.ofList_toList]
    rfl

theorem listed_of_flat (hflat : parent.Flat) : parent.listed = [parent.name] := by
  have hbehind := behind_of_flat hflat
  have hown := parent.parentNames_upToComma
  have hcomma : ',' ∉ parent.behind := hbehind ▸ List.not_mem_nil
  rw [(upToComma_of_notMem hcomma).1] at hown
  rw [listed_eq_parentNames]
  exact hown.mpr (by simp [hbehind])

/-- Where no comma follows a call, the parenthesis behind it is taken for a part of the
name. -/
theorem listed_of_notMem (hflat : ¬ parent.Flat) (hcomma : ',' ∉ parent.behind) :
    parent.listed = [] := by
  obtain ⟨left, hbehind⟩ := exists_behind_eq hflat
  have hend : trimEnd (parent.name.toList ++ parent.behind) =
      parent.name.toList ++ parent.behind := by
    have hclosing : isBlank ')' = false := by decide
    rw [hbehind, ← List.append_assoc, trimEnd, List.reverse_concat, List.dropWhile_cons, hclosing,
      if_neg Bool.false_ne_true, ← List.reverse_concat, List.reverse_reverse]
  have hmark : (parent.name.toList ++ parent.behind).all isQualified = false := by
    have hclosing : isQualified ')' = false := by decide
    rw [hbehind, List.all_append, List.all_append, List.all_cons, hclosing, Bool.false_and,
      Bool.and_false, Bool.and_false]
  rw [listed_eq_parentNames, parentNames_of_notMem (parent.notMem_name_append hcomma), trim,
    trimStart_of_stopsAt (parent.isName.stopsAt_isBlank _), hend, hmark, Bool.and_false]
  rfl

end Parent

/-! ## All parents -/

variable {name : String} {items : List Parent}

/-- Each parent is read as if it stood alone. -/
theorem parents_commaSeparated_chars (hitems : items ≠ []) :
    parents (commaSeparated (items.map (·.chars)) ++ [' ']) = items.flatMap (·.listed) := by
  have hspace : withoutArguments 0 [' '] = [' '] := by decide
  induction items with
  | nil => contradiction
  | cons parent items ih =>
      cases items with
      | nil =>
          have hread := parent.leavesOut.withoutArguments_append [' ']
          rw [List.map_singleton, commaSeparated, parents, hread, hspace, ← parentNames,
            parentNames_append_space, List.flatMap_singleton, parent.listed_eq_parentNames]
      | cons other items =>
          have hothers := ih (List.cons_ne_nil other items)
          have hread := parent.leavesOut.withoutArguments_append
            (',' :: ' ' :: (commaSeparated ((other :: items).map (·.chars)) ++ [' ']))
          rw [withoutArguments_cons (by decide), withoutArguments_cons (by decide)] at hread
          rw [parents, ← parentNames] at hothers
          rw [List.flatMap_cons, ← hothers, parents, List.map_cons, List.map_cons, commaSeparated,
            List.append_assoc, List.cons_append, List.cons_append, ← List.map_cons, hread,
            ← parentNames, parentNames_append_comma, parentNames_space,
            parent.listed_eq_parentNames]

theorem flatMap_listed_of_flat (hflat : ∀ parent ∈ items, parent.Flat) :
    items.flatMap (·.listed) = items.map (·.name) := by
  induction items with
  | nil => rfl
  | cons parent items ih =>
      obtain ⟨hparent, hothers⟩ := List.forall_mem_cons.mp hflat
      rw [List.flatMap_cons, parent.listed_of_flat hparent, ih hothers, List.map_cons,
        List.singleton_append]

theorem notMem_chars {parent : Parent} {c : Char} (hc : c = ';' ∨ c = '{') : c ∉ parent.chars := by
  have hplain : isPlain c = false ∧ c ≠ '(' ∧ c ≠ ')' := by
    rcases hc with rfl | rfl <;> decide
  intro hmem
  rcases List.mem_append.mp hmem with hmem | hmem
  · exact Bool.false_ne_true (hplain.1.symm.trans (parent.isName.plain c hmem))
  · rw [Parent.argumentList] at hmem
    split at hmem
    next arguments _ =>
      obtain ⟨hend, hbody⟩ := arguments.free
      rcases List.mem_cons.mp hmem with heq | hmem
      · exact hplain.2.1 heq
      rcases List.mem_append.mp hmem with hmem | hmem
      · rcases hc with rfl | rfl
        · exact hend hmem
        · exact hbody hmem
      · exact hplain.2.2 (List.mem_singleton.mp hmem)
    next => contradiction

theorem notMem_commaSeparated_chars {c : Char} (hc : c = ';' ∨ c = '{') :
    c ∉ commaSeparated (items.map (·.chars)) := by
  have hmarks : c ≠ ',' ∧ c ≠ ' ' := by
    rcases hc with rfl | rfl <;> decide
  intro hmem
  rcases mem_commaSeparated hmem with heq | heq | ⟨item, hitem, hmem⟩
  · exact hmarks.1 heq
  · exact hmarks.2 heq
  · obtain ⟨parent, -, rfl⟩ := List.mem_map.mp hitem
    exact notMem_chars hc hmem

/-- The title of a text that starts with it. -/
theorem first?_titleShape_append (hname : name.toList ≠ [])
    (hword : ∀ c ∈ name.toList, isWord c = true) (hrest : StopsAt isWord rest) :
    first? titleShape ("contract".toList ++ ' ' :: (name.toList ++ rest)) =
      some ⟨name, inheritance rest⟩ := by
  have hstop : StopsAt isBlank (name.toList ++ rest) := by
    obtain ⟨c, more, heq⟩ := List.exists_cons_of_ne_nil hname
    have hc : isWord c = true := hword c (heq ▸ List.mem_cons_self)
    rw [heq]
    rintro _ ⟨⟩
    cases hblank : isBlank c with
    | false => rfl
    | true => exact Bool.noConfusion ((isWord_of_isBlank hblank).symm.trans hc)
  have hread : titleShape none ("contract".toList ++ ' ' :: (name.toList ++ rest)) =
      some (⟨name, inheritance rest⟩, rest) := by
    rw [titleShape, keyword?_append_left rfl]
    simp only [Option.bind_eq_bind, Option.bind_some, blanks?_space hstop,
      name?_append_of_stopsAt hname hword hrest, String.ofList_toList, Option.pure_def]
  have hcontract : IsRun "contract".toList := isRun_of_mem_reservedWords (by decide)
  obtain ⟨c, more, hchars, -⟩ := hcontract.exists_cons
  rw [hchars, List.cons_append] at hread ⊢
  exact first?_of_read hread

theorem first?_titleShape_heading (hname : name.toList ≠ [])
    (hword : ∀ c ∈ name.toList, isWord c = true) (hitems : items ≠ []) :
    first? titleShape (heading name items).toList = some ⟨name, items.flatMap (·.listed)⟩ := by
  have hbrace : '{' ∉ commaSeparated (items.map (·.chars)) := notMem_commaSeparated_chars (.inr rfl)
  have hclause := inheritance_is hbrace (notMem_commaSeparated_chars (.inl rfl)) [' ', '}']
  have htext : (heading name items).toList =
      "contract".toList ++ ' ' :: (name.toList ++ ' ' :: ("is".toList ++
        ' ' :: (commaSeparated (items.map (·.chars)) ++ ' ' :: '{' :: [' ', '}']))) := by
    simp [heading]
  have hstop : ∀ more : List Char, StopsAt isWord (' ' :: more) := by
    rintro more _ ⟨⟩
    decide
  rw [htext, first?_titleShape_append hname hword (hstop _), hclause,
    parents_commaSeparated_chars hitems]

/-- A contract with parents is read with the names that are listed for each of them. -/
theorem exists_extraction_of_heading (hname : name.toList ≠ [])
    (hword : ∀ c ∈ name.toList, isWord c = true) (hitems : items ≠ []) :
    ∃ extraction, Extraction.ofSource (heading name items) = .ok extraction ∧
      extraction.contractName = name ∧ extraction.parents = items.flatMap (·.listed) := by
  have htitle := first?_titleShape_heading hname hword hitems
  have hblank : allBlank (heading name items).toList = false :=
    List.all_eq_false.mpr ⟨'c', by simp [heading], by decide⟩
  cases hextract : Extraction.ofSource (heading name items) with
  | error error =>
      simp [Extraction.ofSource, hblank, Extraction.ofDeclarations, htitle] at hextract
  | ok extraction =>
      refine ⟨extraction, rfl, ?_⟩
      rw [Extraction.ofDeclarations_eq_ok (Extraction.ofDeclarations_of_ofSource hextract), htitle]
      exact ⟨rfl, rfl⟩

/-- What is listed for each parent of a contract is decided by its own arguments. -/
theorem exists_ofSource_heading (hname : name.toList ≠ [])
    (hword : ∀ c ∈ name.toList, isWord c = true) (hitems : items ≠ []) :
    ∃ extraction, Extraction.ofSource (heading name items) = .ok extraction ∧
      extraction.contractName = name ∧ ListsParents items extraction.parents := by
  obtain ⟨extraction, hextract, hcontract, hparents⟩ :=
    exists_extraction_of_heading hname hword hitems
  exact ⟨extraction, hextract, hcontract,
    { each := hparents
      all := fun hflat => hparents.trans (flatMap_listed_of_flat hflat)
      flat := fun parent _ => parent.listed_of_flat
      parts := fun parent _ => parent.listed_eq
      own := fun parent _ => parent.parentNames_upToComma
      lost := fun parent _ => parent.listed_of_notMem }⟩

/-- A parent with flat arguments, one with a call in front of others, one with nothing but a
call, and one without arguments. -/
def sampleParents : List Parent :=
  [⟨"Named", some ⟨"'x', 1".toList, by decide, by decide⟩, by decide, by decide⟩,
    ⟨"Limits", some ⟨"min(1, 2), Extra, 3".toList, by decide, by decide⟩, by decide, by decide⟩,
    ⟨"Capped", some ⟨"uint256(1000)".toList, by decide, by decide⟩, by decide, by decide⟩,
    ⟨"Ownable", none, by decide, by decide⟩]

theorem exists_ofSource_sampleParents :
    heading "Vault" sampleParents = "contract Vault is Named('x', 1), " ++
        "Limits(min(1, 2), Extra, 3), Capped(uint256(1000)), Ownable \x7b \x7d" ∧
      ∃ extraction, Extraction.ofSource (heading "Vault" sampleParents) = .ok extraction ∧
        extraction.contractName = "Vault" ∧
        extraction.parents = ["Named", "Limits", "Extra", "Ownable"] := by
  have hitems : sampleParents ≠ [] := List.cons_ne_nil _ _
  have hname : "Vault".toList ≠ [] := by decide
  obtain ⟨extraction, hextract, hcontract, hlists⟩ :=
    exists_ofSource_heading hname (forall_mem_of_all (by decide)) hitems
  exact ⟨by decide +kernel, extraction, hextract, hcontract, hlists.each.trans (by decide +kernel)⟩

/-- A contract with two parents, the first of which is handed a conversion. -/
def cappedVault : List Parent :=
  [⟨"Capped", some ⟨"uint256(1000)".toList, by decide, by decide⟩, by decide, by decide⟩,
    ⟨"Ownable", none, by decide, by decide⟩]

theorem not_all_parents_cappedVault :
    heading "Vault" cappedVault =
        "contract Vault is Capped(uint256(1000)), Ownable \x7b \x7d" ∧
      ¬ ∃ extraction, Extraction.ofSource (heading "Vault" cappedVault) = .ok extraction ∧
        extraction.parents = cappedVault.map (·.name) := by
  have hitems : cappedVault ≠ [] := List.cons_ne_nil _ _
  have hname : "Vault".toList ≠ [] := by decide
  refine ⟨by decide +kernel, ?_⟩
  rintro ⟨extraction, hextract, hall⟩
  obtain ⟨other, hother, -, hparents⟩ :=
    exists_extraction_of_heading hname (forall_mem_of_all (by decide)) hitems
  obtain rfl : extraction = other := Except.ok.inj (hextract.symm.trans hother)
  exact absurd (hparents.symm.trans hall) (by decide +kernel)

end ContractAtlas.Source
