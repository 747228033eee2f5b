import Mathlib.Data.List.Infix

/-!
# The pattern language of `LIKE`

Over any alphabet, with one letter for any run of letters, one for a single letter, and one that makes
the letter after it stand for itself.

* `Wildcards` — the three letters, told apart.
* `tokens`, `accepts`, `like` — a pattern read, and the texts it describes.
* `escaped` — a text as a pattern for itself; `like_contains`, the pattern for "contains this text".
* `replace` — every occurrence of a letter replaced; `replace_escaped`, three replacements that escape.

`like_contains` is the theorem: with an escaped text between two any-run letters, a pattern describes
exactly the texts that contain the given one, letter by letter. It holds for every alphabet and every choice
of the three letters, also for a text that is made of them.

**Proof route.** Reading an escaped text gives its letters as literal elements (`tokens_escaped`), by
induction on the text, one escaped letter at a time; what the elements accept is then `accepts_letters`
between two uses of `accepts_many`. `replace_escaped` shows that three calls of `String.replace` in the
right order compute the escaped text.

**Not here.** Collations: letters are compared by equality, so a database that identifies letters is handled
by its users, who instantiate the alphabet or keep the comparison a parameter.
-/

namespace CampusHub.Foundations.Like

variable {α : Type*} [DecidableEq α]

/-- The letters that a pattern does not take literally. -/
structure Wildcards (α : Type*) where
  /-- `%` -/
  many : α
  /-- `_` -/
  single : α
  escape : α
  many_ne_single : many ≠ single
  many_ne_escape : many ≠ escape
  single_ne_escape : single ≠ escape

/-- A pattern element. -/
inductive Token (α : Type*) where
  | letter (c : α)
  | single
  | many
  deriving DecidableEq

/-- The elements of a pattern. An escape at the end stands for itself. -/
def tokens (w : Wildcards α) : List α → List (Token α)
  | [] => []
  | [c] =>
    if c = w.many then [.many] else if c = w.single then [.single] else [.letter c]
  | c :: d :: p =>
    if c = w.escape then .letter d :: tokens w p
    else if c = w.many then .many :: tokens w (d :: p)
    else if c = w.single then .single :: tokens w (d :: p)
    else .letter c :: tokens w (d :: p)

/-- The texts that the elements describe. -/
def accepts : List (Token α) → List α → Bool
  | [], s => s.isEmpty
  | .letter c :: ts, s =>
    match s with
    | [] => false
    | d :: s => decide (d = c) && accepts ts s
  | .single :: ts, s =>
    match s with
    | [] => false
    | _ :: s => accepts ts s
  | .many :: ts, s => s.tails.any (accepts ts)

/-- `text LIKE pattern ESCAPE escape` -/
def like (w : Wildcards α) (pattern text : List α) : Bool := accepts (tokens w pattern) text

/-! ## What the elements accept -/

/-- A run of any letters, then what the rest accepts. -/
theorem accepts_many (ts : List (Token α)) (s : List α) :
    accepts (.many :: ts) s = true ↔ ∃ u v, s = u ++ v ∧ accepts ts v = true := by
  have hdef : accepts (.many :: ts) s = s.tails.any (accepts ts) := rfl
  rw [hdef, List.any_eq_true]
  constructor
  · rintro ⟨v, hv, hts⟩
    obtain ⟨u, rfl⟩ := (List.mem_tails v s).mp hv
    exact ⟨u, v, rfl, hts⟩
  · rintro ⟨u, v, rfl, hts⟩
    exact ⟨v, (List.mem_tails v _).mpr (List.suffix_append u v), hts⟩

/-- The letters of a text in a row. -/
theorem accepts_letters (k : List α) (ts : List (Token α)) (s : List α) :
    accepts (k.map Token.letter ++ ts) s = true ↔ ∃ v, s = k ++ v ∧ accepts ts v = true := by
  induction k generalizing s with
  | nil => simp
  | cons c k ih =>
    cases s with
    | nil => simp [accepts]
    | cons d s =>
      simp only [List.map_cons, List.cons_append, accepts, Bool.and_eq_true, decide_eq_true_eq, ih,
        List.cons.injEq]
      constructor
      · rintro ⟨rfl, v, rfl, hts⟩
        exact ⟨v, ⟨rfl, rfl⟩, hts⟩
      · rintro ⟨v, ⟨rfl, rfl⟩, hts⟩
        exact ⟨rfl, v, rfl, hts⟩

/-! ## A text as a pattern -/

/-- A letter of a text, escaped where a pattern would not take it literally. -/
def escapedLetter (w : Wildcards α) (c : α) : List α :=
  if c = w.escape ∨ c = w.many ∨ c = w.single then [w.escape, c] else [c]

/-- A text as a pattern for itself. -/
def escaped (w : Wildcards α) (k : List α) : List α := k.flatMap (escapedLetter w)

/-- The any-run letter at the front. -/
theorem tokens_many (w : Wildcards α) (p : List α) : tokens w (w.many :: p) = .many :: tokens w p := by
  cases p with
  | nil => simp [tokens]
  | cons d p => simp [tokens, w.many_ne_escape]

/-- An escaped letter in front is read as that letter, whatever follows. -/
theorem tokens_escapedLetter (w : Wildcards α) (c d : α) (p : List α) :
    tokens w (escapedLetter w c ++ d :: p) = .letter c :: tokens w (d :: p) := by
  unfold escapedLetter
  split
  · simp [tokens]
  · rename_i hplain
    obtain ⟨hescape, hmany, hsingle⟩ := not_or.mp hplain |>.imp_right not_or.mp
    simp [tokens, hescape, hmany, hsingle]

/-- An escaped text reads as its letters. -/
theorem tokens_escaped (w : Wildcards α) (k : List α) (d : α) (p : List α) :
    tokens w (escaped w k ++ d :: p) = k.map Token.letter ++ tokens w (d :: p) := by
  induction k with
  | nil => rfl
  | cons c k ih =>
    obtain ⟨d', p', hrest⟩ : ∃ d' p', escaped w k ++ d :: p = d' :: p' :=
      List.exists_cons_of_ne_nil (by simp)
    have hcons : escaped w (c :: k) ++ d :: p = escapedLetter w c ++ d' :: p' := by
      rw [← hrest]
      simp [escaped]
    rw [hcons, tokens_escapedLetter, ← hrest, ih]
    rfl

/-- **The escaped text between two any-run letters describes the texts that contain it.** -/
theorem like_contains (w : Wildcards α) (k s : List α) :
    like w (w.many :: escaped w k ++ [w.many]) s = true ↔ k <:+: s := by
  unfold like
  rw [List.cons_append, tokens_many, tokens_escaped, accepts_many]
  have hlast : tokens w [w.many] = [Token.many] := tokens_many w []
  constructor
  · rintro ⟨u, v, rfl, hv⟩
    obtain ⟨v, rfl, -⟩ := (accepts_letters k _ v).mp hv
    exact ⟨u, v, by rw [List.append_assoc]⟩
  · rintro ⟨u, v, rfl⟩
    refine ⟨u, k ++ v, by rw [List.append_assoc], (accepts_letters k _ _).mpr ⟨v, rfl, ?_⟩⟩
    rw [hlast]
    exact (accepts_many [] v).mpr ⟨v, [], by simp, rfl⟩

/-! ## Replacement -/

/-- Every `c` replaced by `r`. -/
def replace (c : α) (r : List α) (s : List α) : List α := s.flatMap fun d => if d = c then r else [d]

/-- The escape doubled first, then an escape before each of the other two. -/
theorem replace_escaped (w : Wildcards α) (k : List α) :
    replace w.single [w.escape, w.single]
        (replace w.many [w.escape, w.many] (replace w.escape [w.escape, w.escape] k)) =
      escaped w k := by
  unfold replace escaped
  rw [List.flatMap_assoc, List.flatMap_assoc]
  congr 1
  funext c
  have hme := w.many_ne_escape
  have hse := w.single_ne_escape
  have hms := w.many_ne_single
  unfold escapedLetter
  by_cases hescape : c = w.escape
  · subst hescape
    simp [hme.symm, hse.symm]
  · by_cases hmany : c = w.many
    · subst hmany
      simp [hme, hse.symm, hms]
    · by_cases hsingle : c = w.single
      · subst hsingle
        simp [hse, hms.symm]
      · simp [hescape, hmany, hsingle]

end CampusHub.Foundations.Like
