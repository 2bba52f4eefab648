import ContractAtlas.Diagram.Basic
import Mathlib.Data.List.Nodup

/-!
# Written identities

A node is written as a word, and most nodes with a hyphen and something else behind the
word: an index, or the name of a role.  An edge is written as its two ends with a hyphen
between them.  Although hyphens stand inside the ends as well, nothing is ambiguous: the
word ends at the first hyphen, an index is a run of digits, and no word starts with a
digit.  So nodes with one written form are one node, and edges with one written form
have the same ends unless they start at a role.
-/

namespace ContractAtlas.NodeId

/-- The word in front of the first hyphen. -/
def word : NodeId → String
  | .contract => "contract"
  | .role _ => "role"
  | .state => "state"
  | .function _ => "function"
  | .event _ => "event"
  | .security => "security"
  | .parent _ => "parent"
  | .variable _ => "state"
  | .focus => "function"
  | .input _ => "input"
  | .modifier _ => "modifier"
  | .call _ => "dep"
  | .output _ => "output"

/-- The index among the nodes with the same word. -/
def index? : NodeId → Option Nat
  | .function index | .event index | .parent index | .variable index | .input index
  | .modifier index | .call index | .output index => some index
  | .contract | .role _ | .state | .security | .focus => none

/-- Whether a node stands for a role, which has a name in the place of an index. -/
def isRole : NodeId → Bool
  | .role _ => true
  | _ => false

/-- The written form behind the word. -/
def tail : NodeId → List Char
  | .role name => '-' :: name.toList
  | id => (id.index?.map fun index => '-' :: Nat.toDigits 10 index).getD []

/-- The node with a word and perhaps an index. -/
def ofWord? (word : String) (index? : Option Nat) : Option NodeId :=
  match word, index? with
  | "contract", none => some .contract
  | "state", none => some .state
  | "function", some index => some (.function index)
  | "event", some index => some (.event index)
  | "security", none => some .security
  | "parent", some index => some (.parent index)
  | "state", some index => some (.variable index)
  | "function", none => some .focus
  | "input", some index => some (.input index)
  | "modifier", some index => some (.modifier index)
  | "dep", some index => some (.call index)
  | "output", some index => some (.output index)
  | _, _ => none

theorem ofWord?_word_index? {id : NodeId} (hrole : id.isRole = false) :
    ofWord? id.word id.index? = some id := by
  cases id with
  | role name => contradiction
  | _ => rfl

theorem isRole_iff {id : NodeId} : id.isRole = true ↔ id.word = "role" := by
  cases id <;> simp [isRole, word]

theorem toList_text (id : NodeId) : id.text.toList = id.word.toList ++ id.tail := by
  have hstring : ∀ string : String, toString string = string := fun _ => rfl
  cases id <;> simp [text, word, tail, index?, hstring]

theorem hyphen_notMem_word (id : NodeId) : '-' ∉ id.word.toList := by
  cases id <;> simp [word]

/-- No written form starts with a digit. -/
theorem text_eq_cons (id : NodeId) :
    ∃ first rest, id.text.toList = first :: rest ∧ first.isDigit = false := by
  rw [toList_text]
  cases id <;> simp [word]

theorem isDigit_of_mem_toDigits {index : Nat} {c : Char} (hc : c ∈ Nat.toDigits 10 index) :
    c.isDigit = true :=
  Nat.isDigit_of_mem_toDigits (by decide) (by decide) hc

theorem hyphen_notMem_toDigits (index : Nat) : '-' ∉ Nat.toDigits 10 index := by
  intro hhyphen
  have hdigit := isDigit_of_mem_toDigits hhyphen
  simp at hdigit

theorem toDigits_injective : Function.Injective (Nat.toDigits 10) := by
  intro left right heq
  rw [← Nat.ofDigitChars_ten_toDigits (n := left), heq, Nat.ofDigitChars_ten_toDigits]

theorem tail_of_not_isRole {id : NodeId} (hrole : id.isRole = false) :
    id.tail = (id.index?.map fun index => '-' :: Nat.toDigits 10 index).getD [] := by
  cases id with
  | role name => contradiction
  | _ => rfl

/-- What stands behind a word is empty or starts with a hyphen. -/
theorem tail_eq_nil_or_cons (id : NodeId) : id.tail = [] ∨ ∃ rest, id.tail = '-' :: rest := by
  cases id <;> simp [tail, index?]

/-- A list with a hyphen can be cut in one way only at its first hyphen, or at its end if
it has none. -/
theorem append_inj_of_hyphen {left right leftRest rightRest : List Char}
    (hleft : '-' ∉ left) (hright : '-' ∉ right)
    (hleftRest : leftRest = [] ∨ ∃ rest, leftRest = '-' :: rest)
    (hrightRest : rightRest = [] ∨ ∃ rest, rightRest = '-' :: rest)
    (heq : left ++ leftRest = right ++ rightRest) : left = right ∧ leftRest = rightRest := by
  induction left generalizing right with
  | nil =>
      cases right with
      | nil => exact ⟨rfl, heq⟩
      | cons c right =>
          rcases hleftRest with rfl | ⟨rest, rfl⟩
          · contradiction
          · injection heq with hc
            exact absurd (hc ▸ List.mem_cons_self) hright
  | cons c left ih =>
      cases right with
      | nil =>
          rcases hrightRest with rfl | ⟨rest, rfl⟩
          · contradiction
          · injection heq with hc
            exact absurd (hc ▸ List.mem_cons_self) hleft
      | cons d right =>
          rw [List.mem_cons, not_or] at hleft hright
          injection heq with hcd hrest
          obtain ⟨rfl, rfl⟩ := ih hleft.2 hright.2 hrest
          exact ⟨hcd ▸ rfl, rfl⟩

theorem index?_eq_of_tail_eq {left right : NodeId} (hleft : left.isRole = false)
    (hright : right.isRole = false) (htail : left.tail = right.tail) :
    left.index? = right.index? := by
  rw [tail_of_not_isRole hleft, tail_of_not_isRole hright] at htail
  cases hl : left.index? with
  | none => cases hr : right.index? with
    | none => rfl
    | some index => simp [hl, hr] at htail
  | some first => cases hr : right.index? with
    | none => simp [hl, hr] at htail
    | some second =>
        simp only [hl, hr, Option.map_some, Option.getD_some, List.cons.injEq, true_and] at htail
        rw [toDigits_injective htail]

theorem eq_of_word_eq_of_index?_eq {left right : NodeId} (hleft : left.isRole = false)
    (hright : right.isRole = false) (hword : left.word = right.word)
    (hindex : left.index? = right.index?) : left = right := by
  have hsome : some left = some right := by
    rw [← ofWord?_word_index? hleft, ← ofWord?_word_index? hright, hword, hindex]
  injection hsome

theorem isRole_eq_of_word_eq {left right : NodeId} (hword : left.word = right.word) :
    left.isRole = right.isRole := by
  rw [Bool.eq_iff_iff, isRole_iff, isRole_iff, hword]

/-- Nodes with one written form are one node. -/
theorem text_injective : Function.Injective text := by
  intro left right heq
  have hlists : left.word.toList ++ left.tail = right.word.toList ++ right.tail := by
    rw [← toList_text, ← toList_text, heq]
  obtain ⟨hwords, htails⟩ := append_inj_of_hyphen (hyphen_notMem_word left)
    (hyphen_notMem_word right) (tail_eq_nil_or_cons left) (tail_eq_nil_or_cons right) hlists
  have hword : left.word = right.word := String.toList_inj.mp hwords
  cases hleft : left.isRole with
  | false =>
      have hright : right.isRole = false := isRole_eq_of_word_eq hword ▸ hleft
      exact eq_of_word_eq_of_index?_eq hleft hright hword
        (index?_eq_of_tail_eq hleft hright htails)
  | true =>
      have hright : right.isRole = true := isRole_eq_of_word_eq hword ▸ hleft
      cases left <;> cases right <;> try contradiction
      injection htails with _ hnames
      rw [String.toList_inj.mp hnames]

theorem toDigits_append_ne_toList_text (index : Nat) (rest : List Char) (id : NodeId) :
    Nat.toDigits 10 index ++ rest ≠ id.text.toList := by
  intro heq
  obtain ⟨first, others, htext, hfirst⟩ := text_eq_cons id
  obtain ⟨digit, digits, hdigits⟩ := List.exists_cons_of_ne_nil (Nat.toDigits_ne_nil
    (n := index) (b := 10))
  have hmem : digit ∈ Nat.toDigits 10 index := by
    rw [hdigits]
    exact List.mem_cons_self
  have hdigit := isDigit_of_mem_toDigits hmem
  rw [hdigits, htext] at heq
  injection heq with heq
  rw [heq, hfirst] at hdigit
  contradiction

/-- Behind the word of an edge's start, the index of the start and the end of the edge can
be told apart. -/
theorem index?_eq_of_tail_append_eq {left right leftEnd rightEnd : NodeId}
    (hleft : left.isRole = false) (hright : right.isRole = false)
    (heq : left.tail ++ '-' :: leftEnd.text.toList = right.tail ++ '-' :: rightEnd.text.toList) :
    left.index? = right.index? ∧ leftEnd = rightEnd := by
  rw [tail_of_not_isRole hleft, tail_of_not_isRole hright] at heq
  generalize left.index? = leftIndex?, right.index? = rightIndex? at heq ⊢
  cases leftIndex? with
  | none => cases rightIndex? with
    | none =>
        injection heq with _ htexts
        exact ⟨rfl, text_injective (String.toList_inj.mp htexts)⟩
    | some index =>
        injection heq with _ htexts
        exact absurd htexts.symm (toDigits_append_ne_toList_text index _ leftEnd)
  | some first => cases rightIndex? with
    | none =>
        injection heq with _ htexts
        exact absurd htexts (toDigits_append_ne_toList_text first _ rightEnd)
    | some second =>
        injection heq with _ hdigits
        obtain ⟨hindex, hends⟩ := append_inj_of_hyphen (hyphen_notMem_toDigits first)
          (hyphen_notMem_toDigits second) (.inr ⟨_, rfl⟩) (.inr ⟨_, rfl⟩) hdigits
        injection hends with _ htexts
        rw [toDigits_injective hindex]
        exact ⟨rfl, text_injective (String.toList_inj.mp htexts)⟩

end ContractAtlas.NodeId

namespace ContractAtlas

namespace Edge

open NodeId

/-- Where an edge starts and where it ends. -/
def ends (edge : Edge) : NodeId × NodeId :=
  (edge.source, edge.target)

/-- Edges that start at no role and have one written form have the same ends. -/
theorem ends_eq_of_id_eq {left right : Edge} (hleft : left.source.isRole = false)
    (hright : right.source.isRole = false) (hid : left.id = right.id) :
    left.source = right.source ∧ left.target = right.target := by
  have hlists : left.source.word.toList ++ (left.source.tail ++ '-' :: left.target.text.toList) =
      right.source.word.toList ++ (right.source.tail ++ '-' :: right.target.text.toList) := by
    have := congrArg String.toList hid
    simpa [id, toList_text] using this
  have hhyphen : ∀ edge : Edge, edge.source.tail ++ '-' :: edge.target.text.toList = [] ∨
      ∃ rest, edge.source.tail ++ '-' :: edge.target.text.toList = '-' :: rest := by
    intro edge
    rcases tail_eq_nil_or_cons edge.source with hnil | ⟨rest, hcons⟩
    · exact .inr ⟨edge.target.text.toList, by rw [hnil, List.nil_append]⟩
    · exact .inr ⟨rest ++ '-' :: edge.target.text.toList, by rw [hcons, List.cons_append]⟩
  obtain ⟨hwords, hrest⟩ := append_inj_of_hyphen (hyphen_notMem_word left.source)
    (hyphen_notMem_word right.source) (hhyphen left) (hhyphen right) hlists
  have hword : left.source.word = right.source.word := String.toList_inj.mp hwords
  obtain ⟨hindex, htarget⟩ := index?_eq_of_tail_append_eq hleft hright hrest
  exact ⟨eq_of_word_eq_of_index?_eq hleft hright hword hindex, htarget⟩

end Edge

namespace Diagram

/-- What the nodes stand for. -/
def ids (diagram : Diagram) : List NodeId :=
  diagram.nodes.map (·.id)

/-- What depends only on the place in a list is numbered from zero. -/
theorem map_mapIdx {α β γ : Type} {node : Nat → α → β} {value : β → γ} {numbered : Nat → γ}
    (hvalue : ∀ index entry, value (node index entry) = numbered index) (list : List α) :
    (list.mapIdx node).map value = (List.range list.length).map numbered := by
  apply List.ext_getElem
  · simp
  · intro index hleft hright
    simp [hvalue]

/-- Nodes that are numbered by their place stand for the numbers from zero. -/
theorem ids_mapIdx {α : Type} (node : Nat → α → Node) (id : Nat → NodeId)
    (hid : ∀ index entry, (node index entry).id = id index) (list : List α) :
    (list.mapIdx node).map (·.id) = (List.range list.length).map id :=
  map_mapIdx hid list

/-- The ends of all edges. -/
def ends (diagram : Diagram) : List (NodeId × NodeId) :=
  diagram.edges.map Edge.ends

/-- If no edge starts at a role, edges with different ends are written differently. -/
theorem nodup_edgeIds {diagram : Diagram} (hends : diagram.ends.Nodup)
    (hsources : ∀ edge ∈ diagram.edges, edge.source.isRole = false) :
    (diagram.edges.map (·.id)).Nodup := by
  have hedges : diagram.edges.Nodup := hends.of_map _
  apply List.Nodup.map_on _ hedges
  intro left hleft right hright hid
  obtain ⟨hsource, htarget⟩ :=
    Edge.ends_eq_of_id_eq (hsources left hleft) (hsources right hright) hid
  exact List.inj_on_of_nodup_map hends hleft hright (Prod.ext hsource htarget)

/-- Nodes that stand for different things are written differently. -/
theorem nodup_nodeIds {diagram : Diagram} (hids : diagram.ids.Nodup) :
    (diagram.nodes.map (·.id.text)).Nodup := by
  have htexts := List.Nodup.map NodeId.text_injective hids
  rwa [ids, List.map_map] at htexts

end Diagram

end ContractAtlas
