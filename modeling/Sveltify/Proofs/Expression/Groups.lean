import Sveltify.Proofs.Expression.Literals

namespace Sveltify.Expression

open Analysis Component Node

/-!
# Parentheses around replaced setters

Assignments and arrow functions bind less tightly than any operator. So where a setter is an
operand, what is written in its place should be one group in parentheses. A call of a setter becomes
one; a setter used as a value does not.

The characters of a text alone do not tell which of its parentheses count: those in strings,
comments and regular expressions do not. So a converted text is read along with the tree that it
comes from.

* `Lexeme`, `IsBalanced`, `IsGroup`: parentheses that count, and how they pair up;
* `Spells`: the lexemes that a conversion writes for a part of a tree, by the rules of `Writes`;
* `Paired`: the parentheses of each node of a tree pair up in the source;
* `Spells.keeps`: then they do in the converted text;
* `setter_operand_isGroup_iff`: which replacements of setters are groups.
-/

variable {src : Source} {model : Model}

/-! ### Lexemes -/

/-- A stretch of text: a parenthesis that counts, or text without such parentheses. -/
inductive Lexeme where
  | opens
  | closes
  | word (text : String)
deriving Repr, DecidableEq

/-- The text of a lexeme. -/
def Lexeme.text : Lexeme → String
  | .opens => "("
  | .closes => ")"
  | .word text => text

/-- The lexeme of a character, where parentheses count. -/
def Lexeme.ofChar (c : Char) : Lexeme :=
  if c = '(' then .opens else if c = ')' then .closes else .word (String.singleton c)

/-- The text of lexemes. -/
def spell (ls : List Lexeme) : String := String.join (ls.map Lexeme.text)

/-- The lexemes of a text all of whose parentheses count. -/
def lexemesOf (s : String) : List Lexeme := s.toList.map Lexeme.ofChar

@[simp] theorem spell_nil : spell [] = "" := rfl

@[simp] theorem spell_cons (l : Lexeme) (ls : List Lexeme) :
    spell (l :: ls) = l.text ++ spell ls := by
  simp [spell]

@[simp] theorem spell_append (ls ms : List Lexeme) : spell (ls ++ ms) = spell ls ++ spell ms := by
  simp [spell]

/-- A character is spelled as it is. -/
theorem Lexeme.text_ofChar (c : Char) : (ofChar c).text = String.singleton c := by
  unfold ofChar
  split
  case isTrue h => rw [h]; rfl
  case isFalse =>
    split
    case isTrue h => rw [h]; rfl
    case isFalse => rfl

/-- A text is spelled by its characters. -/
@[simp] theorem spell_lexemesOf (s : String) : spell (lexemesOf s) = s := by
  have single : Lexeme.text ∘ Lexeme.ofChar = String.singleton := funext Lexeme.text_ofChar
  rw [← String.toList_inj, spell, lexemesOf, List.map_map, single]
  simp [String.toList_join, List.flatMap_map]

/-! ### Pairs of parentheses -/

/-- How many parentheses are open behind a lexeme; `none` if it closes one where none is open. -/
def Lexeme.onto : Lexeme → Nat → Option Nat
  | .opens, depth => some (depth + 1)
  | .closes, 0 => none
  | .closes, depth + 1 => some depth
  | .word _, depth => some depth

/-- How many parentheses are open behind lexemes. -/
def depthBehind (ls : List Lexeme) (depth : Nat) : Option Nat :=
  ls.foldlM (fun depth l => l.onto depth) depth

/-- Each parenthesis has its counterpart. -/
def IsBalanced (ls : List Lexeme) : Prop := depthBehind ls 0 = some 0

instance (ls : List Lexeme) : Decidable (IsBalanced ls) := inferInstanceAs (Decidable (_ = _))

/-- The first lexeme is a parenthesis, and its counterpart is the last one. -/
def IsGroup (ls : List Lexeme) : Prop :=
  ∃ inner, IsBalanced inner ∧ ls = .opens :: inner ++ [.closes]

/-- A group is balanced text between parentheses. -/
theorem isGroup_iff {ls : List Lexeme} :
    IsGroup ls ↔ IsBalanced ls.tail.dropLast ∧ ls = .opens :: ls.tail.dropLast ++ [.closes] := by
  refine ⟨?_, fun h => ⟨_, h⟩⟩
  rintro ⟨inner, hinner, rfl⟩
  simpa using hinner

instance (ls : List Lexeme) : Decidable (IsGroup ls) := decidable_of_iff' _ isGroup_iff

@[simp] theorem depthBehind_nil (depth : Nat) : depthBehind [] depth = some depth := rfl

@[simp] theorem depthBehind_cons (l : Lexeme) (ls : List Lexeme) (depth : Nat) :
    depthBehind (l :: ls) depth = (l.onto depth).bind (depthBehind ls) :=
  rfl

/-- The depth behind two texts. -/
@[simp] theorem depthBehind_append (ls ms : List Lexeme) (depth : Nat) :
    depthBehind (ls ++ ms) depth = (depthBehind ls depth).bind (depthBehind ms) :=
  List.foldlM_append

/-- What can be read at a depth can be read at any greater one. -/
theorem Lexeme.onto_add {l : Lexeme} {depth depth' : Nat} (h : l.onto depth = some depth')
    (more : Nat) : l.onto (depth + more) = some (depth' + more) := by
  cases l with
  | opens =>
    cases h
    simp [onto, Nat.add_right_comm]
  | closes =>
    cases depth with
    | zero => cases h
    | succ depth =>
      cases h
      rw [Nat.add_right_comm]
      rfl
  | word => cases h; rfl

/-- Parentheses that are open all the time do not matter. -/
theorem depthBehind_add {ls : List Lexeme} {depth depth' : Nat}
    (h : depthBehind ls depth = some depth') (more : Nat) :
    depthBehind ls (depth + more) = some (depth' + more) := by
  induction ls generalizing depth with
  | nil =>
    cases h
    rfl
  | cons l ls ih =>
    obtain ⟨next, hl, hls⟩ := Option.bind_eq_some_iff.1 h
    rw [depthBehind_cons, Lexeme.onto_add hl more]
    exact ih hls

/-- A word is balanced. -/
theorem isBalanced_word (text : String) : IsBalanced [.word text] := rfl

/-- Balanced text leaves any depth as it was. -/
theorem IsBalanced.depthBehind {ls : List Lexeme} (h : IsBalanced ls) (depth : Nat) :
    depthBehind ls depth = some depth := by
  simpa using depthBehind_add h depth

/-! ### The lexemes of replacements -/

/-- The lexemes of an assignment, given those of the value. -/
def assignmentLexemes (cell : String) (value : List Lexeme) (isStatement : Bool) : List Lexeme :=
  if isStatement then .word (cell ++ " = ") :: value
  else .opens :: (.word (cell ++ " = ") :: value) ++ [.closes]

/-- The lexemes of the arrow function that assigns its argument to a cell. -/
def assignerLexemes (cell : String) : List Lexeme :=
  let param := if cell == "value" then "next" else "value"
  [.opens, .word param, .closes, .word " => ", .opens, .word (cell ++ " = " ++ param), .closes]

variable (src) in
/-- The lexemes of the replacement of a name, given those of the value. -/
def entryLexemes (n : Node) (value : List Lexeme) : List Lexeme :=
  if n.kind == "shorthand_property_identifier" then .word (src.text n ++ ": ") :: value else value

/-- The lexemes of the new value of a cell, given those of the node that it comes from. -/
def NewValue.lexemes (v : NewValue) (cell : String) (ls : List Lexeme) : List Lexeme :=
  if v.isApplied then .opens :: ls ++ [.closes, .opens, .word cell, .closes] else ls

/-- An assignment is spelled as it is written. -/
theorem spell_assignmentLexemes (cell : String) (value : List Lexeme) (isStatement : Bool) :
    spell (assignmentLexemes cell value isStatement) =
      assignment cell (spell value) isStatement := by
  cases isStatement <;>
    simp [assignmentLexemes, assignment, Lexeme.text, toString, String.append_assoc]

/-- So is a function that assigns. -/
theorem spell_assignerLexemes (cell : String) : spell (assignerLexemes cell) = assigner cell := by
  have arrow : ") => (" = ")" ++ (" => " ++ "(") := by decide
  unfold assignerLexemes assigner
  extract_lets param
  simp only [spell_cons, spell_nil, Lexeme.text, toString, String.append_empty, arrow,
    String.append_assoc]

/-- So is an entry of an object. -/
theorem spell_entryLexemes (n : Node) (value : List Lexeme) :
    spell (entryLexemes src n value) = entryFor src n (spell value) := by
  unfold entryLexemes entryFor
  split <;> simp [Lexeme.text, toString, String.append_assoc]

/-- So is a new value. -/
theorem NewValue.spell_lexemes (v : NewValue) (cell : String) (ls : List Lexeme) :
    spell (v.lexemes cell ls) = v.text cell (spell ls) := by
  have applied : ")(" = ")" ++ "(" := by decide
  unfold lexemes NewValue.text
  split
  · simp only [spell_append, spell_cons, spell_nil, Lexeme.text, toString, String.append_empty,
      applied, String.append_assoc]
  · rfl

/-- An assignment of a balanced value is balanced. -/
theorem isBalanced_assignmentLexemes (cell : String) {value : List Lexeme} (h : IsBalanced value)
    (isStatement : Bool) : IsBalanced (assignmentLexemes cell value isStatement) := by
  cases isStatement <;> simp [IsBalanced, assignmentLexemes, Lexeme.onto, h.depthBehind]

/-- Where it is no statement, it is a group. -/
theorem isGroup_assignmentLexemes (cell : String) {value : List Lexeme} (h : IsBalanced value) :
    IsGroup (assignmentLexemes cell value false) :=
  ⟨_, isBalanced_assignmentLexemes cell h true, rfl⟩

/-- An entry of an object is balanced. -/
theorem isBalanced_entryLexemes (n : Node) (cell : String) :
    IsBalanced (entryLexemes src n (assignerLexemes cell)) := by
  unfold entryLexemes
  split <;> rfl

/-- The first parenthesis of an arrow function is closed in front of the arrow. -/
theorem not_isGroup_entryLexemes (n : Node) (cell : String) :
    ¬ IsGroup (entryLexemes src n (assignerLexemes cell)) := by
  rw [isGroup_iff]
  rintro ⟨hinner, hgroup⟩
  -- As an entry of an object it starts with a name; else what is left inside closes one too many.
  unfold entryLexemes at hinner hgroup
  split at hgroup
  case isTrue => cases hgroup
  case isFalse h =>
    rw [if_neg h] at hinner
    cases hinner

/-- A new value is balanced. -/
theorem NewValue.isBalanced_lexemes (v : NewValue) (cell : String) {ls : List Lexeme}
    (h : IsBalanced ls) : IsBalanced (v.lexemes cell ls) := by
  unfold lexemes
  split
  · simp [IsBalanced, Lexeme.onto, h.depthBehind]
  · exact h

/-! ### Rules -/

/-- Is the node the token of a parenthesis? -/
def isParenthesis (n : Node) : Bool :=
  (n.kind == "(" || n.kind == ")") && !n.isNamed && n.field.isNone && n.children.isEmpty

variable (src) in
/-- The lexemes of a node without children. -/
def leafLexemes (n : Node) : List Lexeme :=
  if isParenthesis n then lexemesOf (src.text n) else [.word (src.text n)]

/-- A conversion writes a part of a tree, and these are the lexemes. The rules are those of `Writes`
that lead to a text. Text between the children of a node is read character by character; the text of
a node without children is a word, unless it is the token of a parenthesis. -/
inductive Spells (src : Source) (model : Model) :
    Substitution → Bool → Part → List Lexeme → Prop
  /-- A call of a setter without an argument. -/
  | clears {subs : Substitution} {isStatement : Bool} {parent : Option Node} {n : Node}
      {cell : StateBinding} (hcall : setterCall? model n = some cell)
      (hargument : (Hook.argumentsOf n).head? = none) :
      Spells src model subs isStatement (.node parent n)
        (assignmentLexemes cell.name [.word "undefined"] (standsAlone isStatement parent))
  /-- A call of a setter. -/
  | assigns {subs : Substitution} {isStatement : Bool} {parent : Option Node} {n argument : Node}
      {cell : StateBinding} {v : NewValue} {ls : List Lexeme}
      (hcall : setterCall? model n = some cell)
      (hargument : (Hook.argumentsOf n).head? = some argument)
      (hvalue : newValue? src cell.name subs argument = some v)
      (h : Spells src model v.substitution false (.node none v.node) ls) :
      Spells src model subs isStatement (.node parent n)
        (assignmentLexemes cell.name (v.lexemes cell.name ls) (standsAlone isStatement parent))
  /-- A setter used as a value. -/
  | setter {subs : Substitution} {isStatement : Bool} {parent : Option Node} {n : Node}
      {cell : StateBinding} (hname : isName n = true)
      (hcell : referencedCell? model n.span = some cell) :
      Spells src model subs isStatement (.node parent n)
        (entryLexemes src n (assignerLexemes cell.name))
  /-- The current value of a ref, or a name with a substitute. -/
  | replaced {subs : Substitution} {isStatement : Bool} {parent : Option Node} {n : Node}
      {text : String} (hcall : setterCall? model n = none)
      (h : Fate src model subs n [] (.ok (some text))) :
      Spells src model subs isStatement (.node parent n) [.word text]
  | leaf {subs : Substitution} {isStatement : Bool} {parent : Option Node} {n : Node}
      (hcall : setterCall? model n = none) (h : Fate src model subs n [] (.ok none))
      (hleaf : n.children = []) :
      Spells src model subs isStatement (.node parent n) (leafLexemes src n)
  | inner {subs : Substitution} {isStatement : Bool} {parent : Option Node} {n : Node}
      {ls : List Lexeme} (hcall : setterCall? model n = none)
      (h : Fate src model subs n [] (.ok none)) (hinner : n.children ≠ [])
      (hrest : Spells src model subs isStatement (.rest n n.start n.children) ls) :
      Spells src model subs isStatement (.node parent n) ls
  | done {subs : Substitution} {isStatement : Bool} {n : Node} {cursor : Nat} :
      Spells src model subs isStatement (.rest n cursor []) (lexemesOf (src.slice cursor n.stop))
  | next {subs : Substitution} {isStatement : Bool} {n c : Node} {cursor : Nat} {cs : List Node}
      {ls tail : List Lexeme} (h : Spells src model subs isStatement (.node (some n) c) ls)
      (hrest : Spells src model subs isStatement (.rest n c.stop cs) tail) :
      Spells src model subs isStatement (.rest n cursor (c :: cs))
        (lexemesOf (src.slice cursor c.start) ++ ls ++ tail)

/-- A leaf is spelled as it stands in the source. -/
theorem spell_leafLexemes (n : Node) : spell (leafLexemes src n) = src.text n := by
  unfold leafLexemes
  split <;> simp [Lexeme.text]

/-- A name is no call. -/
theorem setterCall_of_isName {n : Node} (h : isName n = true) : setterCall? model n = none := by
  refine if_neg fun hkind => ?_
  simp [isName, eq_of_beq hkind] at h

/-- The lexemes of a part are those of the text that is written for it. -/
theorem Spells.writes {subs : Substitution} {isStatement : Bool} {part : Part} {ls : List Lexeme}
    (h : Spells src model subs isStatement part ls) :
    ∃ uses, Writes src model subs isStatement part uses (.ok (spell ls)) := by
  -- Each rule has its counterpart, and spelling the lexemes gives the text of the counterpart.
  induction h with
  | clears hcall hargument =>
    rw [spell_assignmentLexemes]
    exact ⟨_, .clears hcall hargument⟩
  | assigns hcall hargument hvalue _ ih =>
    obtain ⟨uses, hwrites⟩ := ih
    rw [spell_assignmentLexemes, NewValue.spell_lexemes]
    exact ⟨_, .assigns hcall hargument hvalue hwrites⟩
  | setter hname hcell =>
    rw [spell_entryLexemes, spell_assignerLexemes]
    exact ⟨_, .replaced (setterCall_of_isName hname) (.setter hname hcell)⟩
  | @replaced _ _ _ _ text hcall h =>
    have : spell [.word text] = text := by simp [Lexeme.text]
    rw [this]
    exact ⟨_, .replaced hcall h⟩
  | leaf hcall h hleaf =>
    rw [spell_leafLexemes]
    exact ⟨_, .leaf hcall h hleaf⟩
  | inner hcall h hinner _ ih =>
    obtain ⟨uses, hwrites⟩ := ih
    exact ⟨_, .inner hcall h hinner hwrites⟩
  | done =>
    rw [spell_lexemesOf]
    exact ⟨_, .done⟩
  | next _ _ ih ihrest =>
    obtain ⟨uses, hwrites⟩ := ih
    obtain ⟨uses', htail⟩ := ihrest
    rw [spell_append, spell_append, spell_lexemesOf]
    exact ⟨_, .next hwrites htail⟩

/-- Every text that is written has lexemes. -/
theorem Writes.exists_spells {subs : Substitution} {isStatement : Bool} {part : Part}
    {uses : List SetterUse} {r : Except Failure String}
    (h : Writes src model subs isStatement part uses r) (hok : ∃ text, r = .ok text) :
    ∃ ls, Spells src model subs isStatement part ls := by
  induction h with
  | clears hcall hargument => exact ⟨_, .clears hcall hargument⟩
  | lacks | refused | stops =>
    obtain ⟨text, h⟩ := hok
    cases h
  | @assigns _ _ _ _ _ _ _ _ r hcall hargument hvalue _ ih =>
    cases r with
    | error e =>
      obtain ⟨text, h⟩ := hok
      cases h
    | ok value =>
      obtain ⟨ls, hls⟩ := ih ⟨value, rfl⟩
      exact ⟨_, .assigns hcall hargument hvalue hls⟩
  | @replaced subs _ _ n _ text hcall h =>
    -- Of the texts that stand in for a node, only that of a setter is more than a word.
    generalize hr : Except.ok (some text) = r at h
    cases h with
    | setter hname hcell => exact ⟨_, .setter hname hcell⟩
    | ref hkind href => exact ⟨_, .replaced hcall (.ref hkind href)⟩
    | hook | markup => cases hr
    | other h =>
      have substituted : Fate src model subs n [] (.ok (some text)) := hr ▸ .other h
      exact ⟨_, .replaced hcall substituted⟩
  | leaf hcall h hleaf => exact ⟨_, .leaf hcall h hleaf⟩
  | inner hcall h hinner _ ih =>
    obtain ⟨ls, hls⟩ := ih hok
    exact ⟨_, .inner hcall h hinner hls⟩
  | done => exact ⟨_, .done⟩
  | @next _ _ _ _ _ _ _ _ text r _ _ ih ihrest =>
    cases r with
    | error e =>
      obtain ⟨text, h⟩ := hok
      cases h
    | ok rest =>
      obtain ⟨ls, hls⟩ := ih ⟨text, rfl⟩
      obtain ⟨tail, htail⟩ := ihrest ⟨rest, rfl⟩
      exact ⟨_, .next hls htail⟩

/-! ### Conversions keep parentheses paired -/

variable (src) in
/-- The lexemes between the children that are left of a node, and those of the parentheses among
them. -/
def ownFrom (n : Node) : Nat → List Node → List Lexeme
  | cursor, [] => lexemesOf (src.slice cursor n.stop)
  | cursor, c :: cs =>
    lexemesOf (src.slice cursor c.start) ++
      (if isParenthesis c then lexemesOf (src.text c) else []) ++ ownFrom n c.stop cs

variable (src) in
/-- The lexemes that a node has of its own, and not in a child that is more than a parenthesis. -/
def ownLexemes (n : Node) : List Lexeme :=
  if n.children = [] then [] else ownFrom src n n.start n.children

variable (src) in
/-- The parentheses that each node of a tree has of its own pair up. -/
def Paired (n : Node) : Prop := ∀ m ∈ n.preorder, IsBalanced (ownLexemes src m)

instance (n : Node) : Decidable (Paired src n) :=
  inferInstanceAs (Decidable (∀ m ∈ n.preorder, _))

/-- The parts of a node with paired parentheses have them too. -/
theorem Paired.mono {m n : Node} (h : Paired src n) (hm : m ∈ n.preorder) : Paired src m :=
  fun _ hk => h _ (preorder_trans hk hm)

/-- What is kept of a part whose parentheses pair up. A token is written as it is, and any other
node with parentheses that pair up. -/
def KeepsPairs (src : Source) (ls : List Lexeme) : Part → Prop
  | .node _ n => if isParenthesis n then ls = lexemesOf (src.text n) else IsBalanced ls
  | .rest n cursor cs => ∀ depth depth', depthBehind (ownFrom src n cursor cs) depth = some depth' →
    depthBehind ls depth = some depth'

theorem isParenthesis_eq_false {n : Node} (h : n.kind ≠ "(" ∧ n.kind ≠ ")") :
    isParenthesis n = false := by
  simp [isParenthesis, h]

/-- A name is no parenthesis. -/
theorem isParenthesis_of_isName {n : Node} (h : isName n = true) : isParenthesis n = false := by
  refine isParenthesis_eq_false ?_
  rcases Bool.or_eq_true_iff.1 h with h | h <;> simp [eq_of_beq h]

/-- A call of a setter is a call. -/
theorem kind_of_setterCall {n : Node} {cell : StateBinding} (h : setterCall? model n = some cell) :
    n.kind = "call_expression" := by
  unfold setterCall? at h
  split at h
  case isTrue hkind => exact eq_of_beq hkind
  case isFalse => cases h

/-- It is no parenthesis. -/
theorem isParenthesis_of_setterCall {n : Node} {cell : StateBinding}
    (h : setterCall? model n = some cell) : isParenthesis n = false :=
  isParenthesis_eq_false (by simp [kind_of_setterCall h])

/-- A node that is replaced is a name or a member. -/
theorem Fate.isParenthesis {subs : Substitution} {n : Node} {uses : List SetterUse} {text : String}
    (h : Fate src model subs n uses (.ok (some text))) : isParenthesis n = false := by
  generalize hr : Except.ok (some text) = r at h
  cases h with
  | setter hname => exact isParenthesis_of_isName hname
  | ref hkind => exact isParenthesis_eq_false (by simp [hkind])
  | hook | markup => cases hr
  | other =>
    refine isParenthesis_of_isName ?_
    by_contra hname
    rw [substitute?, if_neg hname] at hr
    cases hr

/-- The new value of a cell does not come from a token. -/
theorem isParenthesis_newValue {cell : String} {subs : Substitution} {call argument : Node}
    {v : NewValue} (hargument : argument ∈ Hook.argumentsOf call)
    (hvalue : newValue? src cell subs argument = some v) : isParenthesis v.node = false := by
  obtain ⟨inner, hinner, rfl⟩ := Option.map_eq_some_iff.1 hvalue
  split
  case isTrue hfunction =>
    rcases @updatedValue_node src cell subs inner with heq | hbody
    · rw [heq]
      refine isParenthesis_eq_false ⟨?_, ?_⟩ <;>
      · intro h
        simp [isFunction, functionKinds, h] at hfunction
    · have := List.find?_some hbody
      simp [isParenthesis, eq_of_beq this]
  case isFalse =>
    -- An argument is a construct of its own.
    obtain ⟨arguments, hnamed⟩ : ∃ arguments : Node, argument ∈ arguments.namedChildren := by
      unfold Hook.argumentsOf at hargument
      cases hfield : call.field? "arguments" with
      | none => simp [hfield] at hargument
      | some arguments => exact ⟨arguments, by simpa [hfield] using hargument⟩
    have := (List.mem_filter.1 hnamed).2
    simp_all [isParenthesis]

/-- A new value has paired parentheses. -/
theorem Paired.newValue {n argument : Node} {cell : String} {subs : Substitution} {v : NewValue}
    (h : Paired src n) (hargument : argument ∈ Hook.argumentsOf n)
    (hvalue : newValue? src cell subs argument = some v) : Paired src v.node :=
  h.mono (preorder_trans (newValue_mem_preorder hvalue) (argumentOf_mem_preorder hargument))

/-- Where a node is no parenthesis, its text is balanced. -/
theorem keepsPairs_node_iff {parent : Option Node} {n : Node} {ls : List Lexeme}
    (hn : isParenthesis n = false) : KeepsPairs src ls (.node parent n) ↔ IsBalanced ls := by
  simp [KeepsPairs, hn]

theorem forall_nodes_node {P : Node → Prop} {parent : Option Node} {n : Node} (h : P n) :
    ∀ m ∈ (Part.node parent n).nodes, P m :=
  fun _ hm => List.mem_singleton.1 hm ▸ h

/-- **Pairs.** A conversion keeps the parentheses of a tree paired. -/
theorem Spells.keeps {subs : Substitution} {isStatement : Bool} {part : Part} {ls : List Lexeme}
    (h : Spells src model subs isStatement part ls) (hpaired : ∀ n ∈ part.nodes, Paired src n) :
    KeepsPairs src ls part := by
  induction h with
  | clears hcall =>
    rw [keepsPairs_node_iff (isParenthesis_of_setterCall hcall)]
    exact isBalanced_assignmentLexemes _ (isBalanced_word _) _
  | @assigns _ _ _ n _ _ v ls hcall hargument hvalue _ ih =>
    have given := List.mem_of_head? hargument
    have value := ih (forall_nodes_node ((hpaired n List.mem_cons_self).newValue given hvalue))
    rw [keepsPairs_node_iff (isParenthesis_newValue given hvalue)] at value
    rw [keepsPairs_node_iff (isParenthesis_of_setterCall hcall)]
    exact isBalanced_assignmentLexemes _ (v.isBalanced_lexemes _ value) _
  | setter hname =>
    rw [keepsPairs_node_iff (isParenthesis_of_isName hname)]
    exact isBalanced_entryLexemes _ _
  | replaced _ h =>
    rw [keepsPairs_node_iff h.isParenthesis]
    exact isBalanced_word _
  | leaf =>
    simp only [KeepsPairs, leafLexemes]
    split
    · rfl
    · exact isBalanced_word _
  | @inner _ _ _ n _ _ _ hinner _ ih =>
    -- What stands between the children and in tokens is copied, so it pairs up as in the source.
    have paired := hpaired n List.mem_cons_self
    have own := paired n (mem_preorder_self n)
    rw [ownLexemes, if_neg hinner] at own
    rw [keepsPairs_node_iff (by simp [isParenthesis, hinner])]
    exact ih (fun c hc => paired.mono (child_mem_preorder hc (mem_preorder_self n))) 0 0 own
  | done => exact fun _ _ h => h
  | @next _ _ n c cursor cs ls tail _ _ ih ihrest =>
    intro depth depth' h
    have child := ih (forall_nodes_node (hpaired c List.mem_cons_self))
    have rest := ihrest fun m hm => hpaired m (List.mem_cons_of_mem _ hm)
    rw [ownFrom, depthBehind_append, depthBehind_append] at h
    obtain ⟨behind, hbehind, htail⟩ := Option.bind_eq_some_iff.1 h
    obtain ⟨front, hfront, hchild⟩ := Option.bind_eq_some_iff.1 hbehind
    -- The child leaves open what its own token leaves open, if it is one, and nothing else.
    have middle : depthBehind ls front = some behind := by
      cases htoken : isParenthesis c with
      | true =>
        simp only [KeepsPairs, htoken, if_true] at child hchild
        rwa [child]
      | false =>
        simp only [KeepsPairs, htoken, Bool.false_eq_true, if_false] at child hchild
        cases hchild
        exact child.depthBehind _
    rw [depthBehind_append, depthBehind_append, hfront, Option.bind_some, middle, Option.bind_some]
    exact rest behind depth' htail

/-! ### Setters among operands -/

/-- The node is an operand of an operator, or the object of a member. -/
def IsOperand (parent n : Node) : Prop :=
  parent.kind = "binary_expression" ∧ n ∈ parent.children ∨
    parent.kind = "member_expression" ∧ parent.field? "object" = some n

variable (model) in
/-- The node calls a setter, or is a setter used as a value. -/
def IsSetter (n : Node) : Prop :=
  (setterCall? model n).isSome = true ∨
    isName n = true ∧ (referencedCell? model n.span).isSome = true

/-- An operand does not stand alone. -/
theorem IsOperand.standsAlone {parent n : Node} (h : IsOperand parent n) (isStatement : Bool) :
    standsAlone isStatement (some parent) = false := by
  rcases h with ⟨hkind, -⟩ | ⟨hkind, -⟩ <;> simp [Expression.standsAlone, hkind]

/-- A node that does not call a setter and adds no use of one is not a setter. -/
theorem Fate.not_isSetter {subs : Substitution} {n : Node} {r : Except Failure (Option String)}
    (hcall : setterCall? model n = none) (h : Fate src model subs n [] r) :
    ¬ IsSetter model n := by
  rintro (hsetter | ⟨hname, hreferenced⟩)
  · simp [hcall] at hsetter
  · cases h with
    | ref hkind => simp [isName, hkind] at hname
    | hook hkind => simp [isName, hkind] at hname
    | markup hmarkup =>
      rcases Bool.or_eq_true_iff.1 hname with h | h <;>
        simp [isJsx, jsxKinds, eq_of_beq h] at hmarkup
    | other h => simp [h.name hname] at hreferenced

/-- A text that stands in for a node as a whole is what is written for it. -/
theorem Writes.eq_of_replaceAt {subs : Substitution} {isStatement : Bool} {parent : Option Node}
    {n : Node} {uses : List SetterUse} {memory memory' : Memory} {r : Except Failure String} {text : String}
    (h : Writes src model subs isStatement (.node parent n) uses r)
    (hrun : replaceAt src model subs isStatement parent n memory = .ok (some text) memory') :
    r = .ok text := by
  have written := h.splices n.size (Nat.le_refl _) memory
  have run : spliceNode src n.size (fun p c _ => replaceAt src model subs isStatement p c) parent n
      (Nat.le_refl _) memory = .ok text memory' := by
    rw [spliceNode]
    show EStateM.bind _ _ memory = _
    unfold EStateM.bind
    rw [hrun]
    rfl
  rw [run] at written
  cases r with
  | ok text' =>
    cases written
    rfl
  | error e => cases written

/-- **Groups.** Let a setter be an operand, and let the parentheses in it pair up in the source.
What is written in place of the setter can be read as lexemes, along with the tree, and these are
one group in parentheses just if the setter is called there. -/
theorem setter_operand_isGroup_iff {p c : Node} (hoperand : IsOperand p c)
    (hsetter : IsSetter model c) (hpaired : Paired src c) {subs : Substitution} {isStatement : Bool}
    {memory memory' : Memory} {text : String}
    (hrun : replaceAt src model subs isStatement (some p) c memory = .ok (some text) memory') :
    (∃ ls, Spells src model subs isStatement (.node (some p) c) ls) ∧
    ∀ ls, Spells src model subs isStatement (.node (some p) c) ls →
      spell ls = text ∧ (IsGroup ls ↔ (setterCall? model c).isSome = true) := by
  obtain ⟨uses, r, hwrites⟩ := exists_writes src model subs isStatement (some p) c
  refine ⟨hwrites.exists_spells ⟨text, hwrites.eq_of_replaceAt hrun⟩, fun ls hls => ⟨?_, ?_⟩⟩
  · obtain ⟨uses, hwrites⟩ := hls.writes
    exact Except.ok.inj (hwrites.eq_of_replaceAt hrun)
  cases hls with
  | clears hcall hargument =>
    rw [hoperand.standsAlone, hcall]
    exact iff_of_true (isGroup_assignmentLexemes _ (isBalanced_word _)) rfl
  | @assigns _ _ _ _ _ cell v _ hcall hargument hvalue h =>
    have given := List.mem_of_head? hargument
    have value := h.keeps (forall_nodes_node (hpaired.newValue given hvalue))
    rw [keepsPairs_node_iff (isParenthesis_newValue given hvalue)] at value
    rw [hoperand.standsAlone, hcall]
    exact iff_of_true (isGroup_assignmentLexemes _ (v.isBalanced_lexemes cell.name value)) rfl
  | setter hname hcell =>
    rw [setterCall_of_isName hname]
    exact iff_of_false (not_isGroup_entryLexemes _ _) Bool.false_ne_true
  | replaced hcall h => exact absurd hsetter (h.not_isSetter hcall)
  | leaf hcall h => exact absurd hsetter (h.not_isSetter hcall)
  | inner hcall h => exact absurd hsetter (h.not_isSetter hcall)

section Sample

/-- A token of punctuation. -/
def punctuation (kind : String) (start stop : Nat) : Node :=
  { plain kind start stop [] with isNamed := false }

/-- A setter called as an operand, with a parenthesis in a string. -/
def calledOperandModule : Module :=
  sampleModule "y && setX(f(\")\"));" <|
    plain "expression_statement" 90 108 [plain "binary_expression" 90 107
      [plain "identifier" 90 91 [] (some "left"),
       plain "call_expression" 95 107
        [plain "identifier" 95 99 [] (some "function"),
         plain "arguments" 99 107
          [punctuation "(" 99 100,
           plain "call_expression" 100 106
            [plain "identifier" 100 101 [] (some "function"),
             plain "arguments" 101 106 [punctuation "(" 101 102, plain "string" 102 105 [],
              punctuation ")" 105 106] (some "arguments")],
           punctuation ")" 106 107] (some "arguments")] (some "right")]]

/-- The assignment is one group. -/
theorem setter_operand_isGroup_of_call : ∃ model reports p c memory ls,
    analyze calledOperandModule {} [] = .ok model reports ∧ p ∈ model.node.preorder ∧
    IsOperand p c ∧ IsSetter model c ∧ Paired calledOperandModule.source c ∧
    replaceAt calledOperandModule.source model [] false (some p) c {} =
      .ok (some "(x = f(\")\"))") memory ∧
    Spells calledOperandModule.source model [] false (.node (some p) c) ls ∧
    spell ls = "(x = f(\")\"))" ∧ IsGroup ls := by
  let src := calledOperandModule.source
  have test : endsIn (analyze calledOperandModule {}) [] (fun model _ =>
      model.node.preorder.any fun p => p.children.any fun c =>
        decide (p.kind = "binary_expression" ∧ (setterCall? model c).isSome = true ∧
          Paired src c ∧ endsIn (replaceAt src model [] false (some p) c) {}
            (fun text _ => text == some "(x = f(\")\"))") = true)) = true := by
    decide +kernel
  obtain ⟨model, reports, hmodel, hany⟩ := exists_ok_of_endsIn test
  obtain ⟨p, hp, hany⟩ := List.any_eq_true.1 hany
  obtain ⟨c, hc, hchecked⟩ := List.any_eq_true.1 hany
  obtain ⟨hkind, hcall, hpaired, hends⟩ := of_decide_eq_true hchecked
  obtain ⟨text, memory, hrun, htext⟩ := exists_ok_of_endsIn hends
  rw [eq_of_beq htext] at hrun
  have hoperand : IsOperand p c := .inl ⟨hkind, hc⟩
  obtain ⟨⟨ls, hls⟩, hall⟩ := setter_operand_isGroup_iff hoperand (.inl hcall) hpaired hrun
  obtain ⟨hspell, hgroup⟩ := hall ls hls
  exact ⟨model, reports, p, c, memory, ls, hmodel, hp, hoperand, .inl hcall, hpaired, hrun, hls,
    hspell, hgroup.2 hcall⟩

/-- A setter used as a value, as an operand. -/
def passedOperandModule : Module :=
  sampleModule "y && setX;" <|
    plain "expression_statement" 90 100 [plain "binary_expression" 90 99
      [plain "identifier" 90 91 [] (some "left"), plain "identifier" 95 99 [] (some "right")]]

/-- The arrow function is written without parentheses around it, next to the operator. -/
theorem setter_operand_not_isGroup : ∃ model reports p c,
    analyze passedOperandModule {} [] = .ok model reports ∧ p ∈ model.node.preorder ∧
    IsOperand p c ∧ IsSetter model c ∧ Paired passedOperandModule.source c ∧
    endsIn (replaceAt passedOperandModule.source model [] false (some p) c) {}
      (fun text _ => text == some "(value) => (x = value)") = true ∧
    endsIn (convert passedOperandModule.source model [] false p) {}
      (fun text _ => text == "y && (value) => (x = value)") = true ∧
    ¬ IsGroup (lexemesOf "(value) => (x = value)") := by
  let src := passedOperandModule.source
  have test : endsIn (analyze passedOperandModule {}) [] (fun model _ =>
      model.node.preorder.any fun p => p.children.any fun c =>
        decide (p.kind = "binary_expression" ∧ isName c = true ∧
          (referencedCell? model c.span).isSome = true ∧ Paired src c ∧
          endsIn (replaceAt src model [] false (some p) c) {}
            (fun text _ => text == some "(value) => (x = value)") = true ∧
          endsIn (convert src model [] false p) {}
            (fun text _ => text == "y && (value) => (x = value)") = true)) = true := by
    decide +kernel
  obtain ⟨model, reports, hmodel, hany⟩ := exists_ok_of_endsIn test
  obtain ⟨p, hp, hany⟩ := List.any_eq_true.1 hany
  obtain ⟨c, hc, hchecked⟩ := List.any_eq_true.1 hany
  obtain ⟨hkind, hname, hcell, hpaired, hreplaced, hconverted⟩ := of_decide_eq_true hchecked
  exact ⟨model, reports, p, c, hmodel, hp, .inl ⟨hkind, hc⟩, .inr ⟨hname, hcell⟩, hpaired,
    hreplaced, hconverted, by decide +kernel⟩

end Sample

end Sveltify.Expression
