/-
Patterns of ECMAScript regular expressions.

A pattern is read character by character, with the groups that are open on a stack, and
denotes a regular expression. A text is matched as a whole when it is a word of the
expression; in which order a matcher tries the alternatives does not matter then. The
fragment has alternatives, groups, classes, `\d`, `\s` and the greedy `*`, `+` and `?`.

* `compile` — the expression of a pattern of the fragment;
* `Reads` — a text is read as some items of a group, wherever it stands;
* `Reads.group`, `Reads.choice`, `compile_of_reads` — groups, alternatives and whole patterns;
* `mem_concat_cons`, `mem_oneOrMore` — the words of expressions.
-/
import Mathlib.Computability.RegularExpressions

namespace Pattern

abbrev Expr := RegularExpression Char

/-- One of the characters. -/
def oneOf (chars : List Char) : Expr := (chars.map RegularExpression.char).foldr (· + ·) 0

/-- One expression after another. -/
def concat (items : List Expr) : Expr := items.foldr (· * ·) 1

def oneOrMore (e : Expr) : Expr := e * e.star

def optional (e : Expr) : Expr := 1 + e

/-- The characters from `a` to `b`. -/
def interval (a b : Char) : List Char :=
  (List.range (b.toNat + 1 - a.toNat)).map fun i => Char.ofNat (a.toNat + i)

/-- The characters of a class, between its brackets. -/
def classChars : List Char → List Char
  | a :: '-' :: b :: rest => interval a b ++ classChars rest
  | a :: rest => a :: classChars rest
  | [] => []

def digits : List Char := interval '0' '9'

def whitespace : List Char := [' ', '\t', '\n', '\x0b', '\x0c', '\r']

/-- The interval holds what it says. -/
theorem mem_interval {a b c : Char} (ha : a.toNat ≤ c.toNat) (hb : c.toNat ≤ b.toNat) :
    c ∈ interval a b := by
  refine List.mem_map.mpr ⟨c.toNat - a.toNat, List.mem_range.mpr (by omega), ?_⟩
  rw [Nat.add_sub_cancel' ha, Char.ofNat_toNat]

/-! ### Reading patterns -/

/-- Characters that stand for themselves. -/
def IsLiteral (c : Char) : Prop :=
  c ∉ ['(', ')', '|', '*', '+', '?', '[', '\\', '^', '$', '.', '{', '}', ']']

instance : DecidablePred IsLiteral := fun c => inferInstanceAs (Decidable (c ∉ _))

/-- A group that is open: the alternatives before the present one, the items of that one,
latest first, and the atom that a quantifier would follow. -/
structure Group where
  alternatives : Expr
  items : List Expr
  atom : Option Expr

namespace Group

/-- The items with the atom. -/
def all (g : Group) : List Expr :=
  match g.atom with
  | none => g.items
  | some e => e :: g.items

def expr (g : Group) : Expr := g.alternatives + concat g.all.reverse

/-- An atom behind the items. -/
def push (g : Group) (e : Expr) : Group := ⟨g.alternatives, g.all, some e⟩

/-- A quantifier behind an atom. -/
def quantify (g : Group) (f : Expr → Expr) : Option Group :=
  g.atom.map fun e => ⟨g.alternatives, f e :: g.items, none⟩

end Group

/-- The next character is one of the pattern, behind a backslash, or in a class, whose
characters are held latest first. -/
inductive Mode
  | plain
  | escape
  | set (chars : List Char)

/-- The groups around the innermost one, and that. -/
structure Reader where
  outer : List Group
  group : Group
  mode : Mode

namespace Reader

def start : Reader := ⟨[], ⟨0, [], none⟩, .plain⟩

/-- An atom of the innermost group. -/
def push (r : Reader) (e : Expr) : Reader := ⟨r.outer, r.group.push e, .plain⟩

def quantify (r : Reader) (f : Expr → Expr) : Option Reader :=
  (r.group.quantify f).map fun g => ⟨r.outer, g, .plain⟩

/-- The next character outside of classes. -/
def stepPlain (r : Reader) (c : Char) : Option Reader :=
  if IsLiteral c then some (r.push (.char c))
  else match c with
    | '(' => some ⟨r.group :: r.outer, ⟨0, [], none⟩, .plain⟩
    | ')' =>
      match r.outer with
      | [] => none
      | g :: outer => some ⟨outer, g.push r.group.expr, .plain⟩
    | '|' => some ⟨r.outer, ⟨r.group.expr, [], none⟩, .plain⟩
    | '*' => r.quantify RegularExpression.star
    | '+' => r.quantify oneOrMore
    | '?' => r.quantify optional
    | '[' => some { r with mode := .set [] }
    | '\\' => some { r with mode := .escape }
    | _ => none

def step (r : Reader) (c : Char) : Option Reader :=
  match r.mode with
  | .plain => r.stepPlain c
  | .escape =>
    if c = 'd' then some (r.push (oneOf digits))
    else if c = 's' then some (r.push (oneOf whitespace))
    else none
  | .set chars =>
    if c = ']' then some (r.push (oneOf (classChars chars.reverse)))
    else some { r with mode := .set (c :: chars) }

end Reader

/-- The expression of a pattern whose groups are all closed. -/
def compile (pattern : List Char) : Option Expr := do
  let r ← pattern.foldlM Reader.step Reader.start
  match r.outer, r.mode with
  | [], .plain => some r.group.expr
  | _, _ => none

/-- The text is read as the items, wherever in a group it stands. -/
def Reads (text : List Char) (es : List Expr) : Prop :=
  ∀ outer g, ∃ g', text.foldlM Reader.step ⟨outer, g, .plain⟩ = some ⟨outer, g', .plain⟩ ∧
    g'.alternatives = g.alternatives ∧ g'.all = es.reverse ++ g.all

theorem reads_nil : Reads [] [] := fun _ g => ⟨g, rfl, rfl, rfl⟩

theorem Reads.append {text text' : List Char} {es es' : List Expr} (h : Reads text es)
    (h' : Reads text' es') : Reads (text ++ text') (es ++ es') := by
  intro outer g
  obtain ⟨g₁, hrun₁, halt₁, hall₁⟩ := h outer g
  obtain ⟨g₂, hrun₂, halt₂, hall₂⟩ := h' outer g₁
  refine ⟨g₂, ?_, halt₂.trans halt₁, ?_⟩
  · rw [List.foldlM_append, hrun₁]
    exact hrun₂
  · rw [hall₂, hall₁, List.reverse_append, List.append_assoc]

/-- Literal characters. -/
theorem reads_literals {text : List Char} (h : ∀ c ∈ text, IsLiteral c) :
    Reads text (text.map RegularExpression.char) := by
  induction text with
  | nil => exact reads_nil
  | cons c text ih =>
    have hone : Reads [c] [.char c] := by
      intro outer g
      refine ⟨g.push (.char c), ?_, rfl, rfl⟩
      have hstep : Reader.step ⟨outer, g, .plain⟩ c = some ⟨outer, g.push (.char c), .plain⟩ :=
        if_pos (h c List.mem_cons_self)
      rw [List.foldlM_cons, hstep]
      rfl
    exact hone.append (ih fun d hd => h d (List.mem_cons_of_mem c hd))

/-- A group of one alternative. -/
theorem Reads.group {text : List Char} {es : List Expr} (h : Reads text es) :
    Reads ('(' :: (text ++ [')'])) [0 + concat es] := by
  intro outer g
  obtain ⟨g', hrun, halt, hall⟩ := h (g :: outer) ⟨0, [], none⟩
  refine ⟨g.push (0 + concat es), ?_, rfl, rfl⟩
  have hexpr : g'.expr = 0 + concat es := by
    rw [Group.expr, halt, hall, Group.all, List.append_nil, List.reverse_reverse]
  rw [List.foldlM_cons]
  show (text ++ [')']).foldlM Reader.step ⟨g :: outer, ⟨0, [], none⟩, .plain⟩ = _
  rw [List.foldlM_append, hrun, ← hexpr]
  rfl

/-- A group of two alternatives. -/
theorem Reads.choice {text text' : List Char} {es es' : List Expr} (h : Reads text es)
    (h' : Reads text' es') :
    Reads ('(' :: (text ++ '|' :: (text' ++ [')']))) [0 + concat es + concat es'] := by
  intro outer g
  obtain ⟨g₁, hrun₁, halt₁, hall₁⟩ := h (g :: outer) ⟨0, [], none⟩
  obtain ⟨g₂, hrun₂, halt₂, hall₂⟩ := h' (g :: outer) ⟨g₁.expr, [], none⟩
  refine ⟨g.push (0 + concat es + concat es'), ?_, rfl, rfl⟩
  have hexpr : g₂.expr = 0 + concat es + concat es' := by
    rw [Group.expr, halt₂, hall₂, Group.all, List.append_nil, List.reverse_reverse, Group.expr,
      halt₁, hall₁, Group.all, List.append_nil, List.reverse_reverse]
  rw [List.foldlM_cons]
  show (text ++ '|' :: (text' ++ [')'])).foldlM Reader.step ⟨g :: outer, ⟨0, [], none⟩, .plain⟩ = _
  rw [List.foldlM_append, hrun₁]
  show (text' ++ [')']).foldlM Reader.step ⟨g :: outer, ⟨g₁.expr, [], none⟩, .plain⟩ = _
  rw [List.foldlM_append, hrun₂, ← hexpr]
  rfl

theorem compile_of_reads {text : List Char} {es : List Expr} (h : Reads text es) :
    compile text = some (0 + concat es) := by
  obtain ⟨g, hrun, halt, hall⟩ := h [] ⟨0, [], none⟩
  have hexpr : g.expr = 0 + concat es := by
    rw [Group.expr, halt, hall, Group.all, List.append_nil, List.reverse_reverse]
  rw [compile, Reader.start, hrun, ← hexpr]
  rfl

/-! ### Words -/

variable {e : Expr} {es : List Expr} {w : List Char}

theorem mem_zero_add : w ∈ (0 + e).matches' ↔ w ∈ e.matches' := by
  rw [RegularExpression.matches'_add, RegularExpression.matches'_zero, zero_add]

theorem mem_add {e' : Expr} : w ∈ (e + e').matches' ↔ w ∈ e.matches' ∨ w ∈ e'.matches' := by
  rw [RegularExpression.matches'_add, Language.mem_add]

theorem mem_concat_nil : w ∈ (concat []).matches' ↔ w = [] := by
  rw [concat, List.foldr_nil, RegularExpression.matches'_epsilon, Language.mem_one]

theorem mem_concat_cons :
    w ∈ (concat (e :: es)).matches' ↔
      ∃ a b, a ∈ e.matches' ∧ b ∈ (concat es).matches' ∧ w = a ++ b := by
  rw [concat, List.foldr_cons, RegularExpression.matches'_mul, Language.mem_mul]
  constructor
  · rintro ⟨a, ha, b, hb, rfl⟩
    exact ⟨a, b, ha, hb, rfl⟩
  · rintro ⟨a, b, ha, hb, rfl⟩
    exact ⟨a, ha, b, hb, rfl⟩

theorem mem_char {c : Char} : w ∈ (RegularExpression.char c).matches' ↔ w = [c] := by
  rw [RegularExpression.matches'_char]
  exact Set.mem_singleton_iff

theorem mem_concat_append {es' : List Expr} :
    w ∈ (concat (es ++ es')).matches' ↔
      ∃ a b, a ∈ (concat es).matches' ∧ b ∈ (concat es').matches' ∧ w = a ++ b := by
  induction es generalizing w with
  | nil =>
    constructor
    · intro h
      exact ⟨[], w, mem_concat_nil.mpr rfl, h, rfl⟩
    · rintro ⟨a, b, ha, hb, rfl⟩
      rw [mem_concat_nil.mp ha]
      exact hb
  | cons e es ih =>
    rw [List.cons_append, mem_concat_cons]
    constructor
    · rintro ⟨a, b, ha, hb, rfl⟩
      obtain ⟨b₁, b₂, hb₁, hb₂, rfl⟩ := ih.mp hb
      exact ⟨a ++ b₁, b₂, mem_concat_cons.mpr ⟨a, b₁, ha, hb₁, rfl⟩, hb₂,
        (List.append_assoc a b₁ b₂).symm⟩
    · rintro ⟨a, b, ha, hb, rfl⟩
      obtain ⟨a₁, a₂, ha₁, ha₂, rfl⟩ := mem_concat_cons.mp ha
      exact ⟨a₁, a₂ ++ b, ha₁, ih.mpr ⟨a₂, b, ha₂, hb, rfl⟩, List.append_assoc a₁ a₂ b⟩

theorem mem_concat_singleton : w ∈ (concat [e]).matches' ↔ w ∈ e.matches' := by
  rw [concat, List.foldr_cons, List.foldr_nil, RegularExpression.matches'_mul,
    RegularExpression.matches'_epsilon, mul_one]

theorem mem_concat_char {c : Char} :
    w ∈ (concat (.char c :: es)).matches' ↔ ∃ b ∈ (concat es).matches', w = c :: b := by
  rw [mem_concat_cons]
  constructor
  · rintro ⟨a, b, ha, hb, rfl⟩
    rw [mem_char.mp ha]
    exact ⟨b, hb, rfl⟩
  · rintro ⟨b, hb, rfl⟩
    exact ⟨[c], b, mem_char.mpr rfl, hb, rfl⟩

theorem mem_literals {text : List Char} :
    w ∈ (concat (text.map RegularExpression.char)).matches' ↔ w = text := by
  induction text generalizing w with
  | nil => exact mem_concat_nil
  | cons c text ih =>
    rw [List.map_cons, mem_concat_char]
    constructor
    · rintro ⟨b, hb, rfl⟩
      rw [ih.mp hb]
    · rintro rfl
      exact ⟨text, ih.mpr rfl, rfl⟩

theorem mem_oneOf {chars : List Char} : w ∈ (oneOf chars).matches' ↔ ∃ c ∈ chars, w = [c] := by
  induction chars with
  | nil =>
    rw [oneOf, List.map_nil, List.foldr_nil, RegularExpression.matches'_zero]
    refine iff_of_false (Language.notMem_zero w) ?_
    rintro ⟨c, hc, -⟩
    exact absurd hc List.not_mem_nil
  | cons d chars ih =>
    rw [oneOf, List.map_cons, List.foldr_cons, mem_add, mem_char, ← oneOf, ih]
    constructor
    · rintro (rfl | ⟨c, hc, rfl⟩)
      · exact ⟨d, List.mem_cons_self, rfl⟩
      · exact ⟨c, List.mem_cons_of_mem d hc, rfl⟩
    · rintro ⟨c, hc, rfl⟩
      rcases List.mem_cons.mp hc with rfl | hc
      · exact Or.inl rfl
      · exact Or.inr ⟨c, hc, rfl⟩

theorem mem_optional : w ∈ (optional e).matches' ↔ w = [] ∨ w ∈ e.matches' := by
  rw [optional, mem_add, RegularExpression.matches'_epsilon, Language.mem_one]

/-- Characters of a class, at least one. -/
theorem mem_oneOrMore {chars : List Char} :
    w ∈ (oneOrMore (oneOf chars)).matches' ↔ w ≠ [] ∧ ∀ c ∈ w, c ∈ chars := by
  have hstar : ∀ u : List Char, u ∈ (oneOf chars).star.matches' ↔ ∀ c ∈ u, c ∈ chars := by
    intro u
    rw [RegularExpression.matches'_star, Language.mem_kstar]
    constructor
    · rintro ⟨words, rfl, hwords⟩ c hc
      obtain ⟨word, hword, hc⟩ := List.mem_flatten.mp hc
      obtain ⟨d, hd, rfl⟩ := mem_oneOf.mp (hwords word hword)
      rwa [List.mem_singleton.mp hc]
    · intro h
      refine ⟨u.map fun c => [c], ?_, fun word hword => ?_⟩
      · rw [← List.flatMap_def, List.flatMap_singleton' u]
      · obtain ⟨c, hc, rfl⟩ := List.mem_map.mp hword
        exact mem_oneOf.mpr ⟨c, h c hc, rfl⟩
  rw [oneOrMore, RegularExpression.matches'_mul, Language.mem_mul]
  constructor
  · rintro ⟨a, ha, b, hb, rfl⟩
    obtain ⟨d, hd, rfl⟩ := mem_oneOf.mp ha
    refine ⟨List.cons_ne_nil d b, fun c hc => ?_⟩
    rcases List.mem_cons.mp hc with rfl | hc
    · exact hd
    · exact (hstar b).mp hb c hc
  · rintro ⟨hne, hall⟩
    obtain ⟨d, b, rfl⟩ := List.exists_cons_of_ne_nil hne
    exact ⟨[d], mem_oneOf.mpr ⟨d, hall d List.mem_cons_self, rfl⟩, b,
      (hstar b).mpr fun c hc => hall c (List.mem_cons_of_mem d hc), rfl⟩

end Pattern
