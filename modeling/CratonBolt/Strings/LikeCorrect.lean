import CratonBolt.Strings.LikeMatcher

/-!
# `LIKE`

Compilation fails on an escape that is a wildcard or escapes nothing, and on nothing else. What it
returns accepts exactly the strings in the language of the pattern, whichever shape the pattern got.
-/

namespace CratonBolt.Like

open Wildcards Outcome List

/-! ### Shapes -/

/-- The shape accepts the strings that the symbols describe. -/
def Shape.Means (lower : Char → List Char) (caseInsensitive : Bool) (shape : Shape)
    (ps : List (Symbol Char)) : Prop :=
  ∀ s : String, ∃ result, PatternMatcher.matches lower ⟨shape, caseInsensitive⟩ s = some result ∧
    (result = true ↔ Accepts (charsEq lower caseInsensitive) ps s.toList)

section Shapes

variable {lower : Char → List Char} {p : List Char}

theorem means_exact :
  (Shape.exact p).Means lower false (p.map .exactly)
  := by
  intro s
  refine ⟨_, rfl, ?_⟩
  rw [beq_iff_eq, Utf8.bytes_inj]
  exact accepts_exactly.symm

theorem means_prefixOf :
  (Shape.prefixOf p).Means lower false (p.map .exactly ++ [.any])
  := by
  intro s
  refine ⟨_, rfl, ?_⟩
  rw [List.isPrefixOf_iff_prefix, Utf8.bytes_isPrefix_iff]
  exact accepts_exactly_any.symm

theorem means_suffixOf :
  (Shape.suffixOf p).Means lower false (.any :: p.map .exactly)
  := by
  intro s
  refine ⟨_, rfl, ?_⟩
  rw [isSuffixOf_iff_suffix, Utf8.bytes_isSuffix_iff]
  exact accepts_any_exactly.symm

theorem means_contains :
  (Shape.contains p).Means lower false (.any :: (p.map .exactly ++ [.any]))
  := by
  intro s
  refine ⟨_, rfl, ?_⟩
  rw [decide_eq_true_iff, Utf8.bytes_isInfix_iff]
  exact accepts_any_exactly_any.symm

end Shapes

/-! ### Compilation -/

section Compile

variable {debug : Char → String} {lower : Char → List Char} {escape : Option Char}
  {caseInsensitive : Bool} {pattern : List Char}

theorem tokenise_fails :
  (∃ e, tokenise debug pattern escape = .error e) ↔ dangling escape pattern = true
  := (@tokeniseLoop_spec (· == ·) debug escape pattern [] []).1

theorem means_generic {tokens : List Token} (h : tokenise debug pattern escape = .ok tokens) :
  (Shape.generic tokens).Means lower caseInsensitive (symbols escape pattern)
  := by
  intro s
  obtain ⟨result, hresult, hacc⟩ :=
    genericMatch_spec (charsEq lower caseInsensitive) s.toList tokens
  exact ⟨result, hresult, hacc.trans ((tokeniseLoop_spec debug escape pattern [] []).2 tokens h _)⟩

/-- A pattern in which the escape does not occur is read character by character. -/
theorem symbols_of_not_mem (h : ∀ c ∈ pattern, escape ≠ some c) :
  symbols escape pattern = pattern.map symbol
  := by
  induction pattern with
  | nil => rfl
  | cons c cs ih =>
    rw [symbols_cons_of_ne (h c (by simp)), ih (fun d hd => h d (mem_cons_of_mem _ hd)),
      map_cons]

theorem dangling_of_not_mem (h : ∀ c ∈ pattern, escape ≠ some c) :
  dangling escape pattern = false
  := by
  induction pattern with
  | nil => rfl
  | cons c cs ih =>
    rw [dangling_cons_of_ne (h c (by simp)), ih (fun d hd => h d (mem_cons_of_mem _ hd))]

/-- A pattern without wildcards describes itself. -/
theorem map_symbol_eq {p : List Char} (hpct : '%' ∉ p) (hund : '_' ∉ p) :
  p.map symbol = p.map .exactly
  := by
  apply map_congr_left
  intro c hc
  have h₁ : c ≠ '%' := fun h => hpct (h ▸ hc)
  have h₂ : c ≠ '_' := fun h => hund (h ▸ hc)
  simp [symbol, h₁, h₂]

theorem stripSuffix_eq_some {c : Char} {cs rest : List Char} :
  stripSuffix c cs = some rest ↔ cs = rest ++ [c]
  := by
  unfold stripSuffix
  constructor
  · intro h
    split at h
    · next hlast =>
      obtain ⟨front, rfl⟩ := getLast?_eq_some_iff.mp hlast
      simpa using h
    · cases h
  · rintro rfl
    simp

theorem stripPrefix_eq_some {c : Char} {cs rest : List Char} :
  stripPrefix c cs = some rest ↔ cs = c :: rest
  := by
  unfold stripPrefix
  cases cs with
  | nil => simp
  | cons d cs =>
    simp only [head?_cons, Option.some.injEq, tail_cons, List.cons.injEq]
    constructor
    · intro h
      split at h
      · next hd => exact ⟨hd, Option.some.inj h⟩
      · cases h
    · rintro ⟨rfl, rfl⟩
      simp

/-- The result of a compilation fails on a dangling escape only, and means the pattern. -/
structure Compiled (lower : Char → List Char) (caseInsensitive : Bool) (escape : Option Char)
    (pattern : List Char) (r : BoltResult Shape) : Prop where
  fails : (∃ e, r = .error e) ↔ dangling escape pattern = true
  means : ∀ shape, r = .ok shape → shape.Means lower caseInsensitive (symbols escape pattern)

theorem compiled_generic :
  Compiled lower caseInsensitive escape pattern (genericShape debug pattern escape)
  := by
  constructor
  · rw [← @tokenise_fails debug, genericShape]
    cases tokenise debug pattern escape <;> simp [Except.map]
  · intro shape h
    obtain ⟨tokens, htok, rfl⟩ := map_eq_ok.mp h
    exact means_generic htok

theorem compiled_shape {shape : Shape} {ps : List (Symbol Char)}
    (hesc : ∀ c ∈ pattern, escape ≠ some c) (hps : pattern.map symbol = ps)
    (h : shape.Means lower false ps) :
  Compiled lower false escape pattern (.ok shape)
  := by
  constructor
  · simp [dangling_of_not_mem hesc]
  · rintro shape' ⟨⟩
    rwa [symbols_of_not_mem hesc, hps]

theorem symbol_percent :
  symbol '%' = .any
  := rfl

/-- Every shape that `classify` picks has the language of the pattern. -/
theorem compiled_classify :
  Compiled lower false escape pattern (classify debug pattern escape)
  := by
  unfold classify
  by_cases hany : pattern.any (fun c => escape = some c) = true
  · rw [if_pos hany]
    exact compiled_generic
  · have hesc : ∀ c ∈ pattern, escape ≠ some c := by simpa using hany
    by_cases hund : pattern.contains '_' = true
    · rw [if_neg hany, if_pos hund]
      exact compiled_generic
    · rw [if_neg hany, if_neg hund]
      rw [contains_iff_mem] at hund
      -- the count of `%` decides whether what is left of the pattern has none
      have hnone : ∀ p : List Char, p.countP (· = '%') = 0 → '%' ∉ p := by
        intro p hp hmem
        exact absurd (countP_eq_zero.mp hp _ hmem) (by simp)
      split
      · next hcount =>
        exact compiled_shape hesc (map_symbol_eq (hnone _ hcount) hund) means_exact
      · next hcount =>
        split
        · next rest hrest =>
          obtain rfl := stripSuffix_eq_some.mp hrest
          simp only [countP_append, countP_singleton, decide_true, if_true] at hcount
          apply compiled_shape hesc _ means_prefixOf
          rw [map_append, map_symbol_eq (hnone _ (by omega)) (fun h => hund (by simp [h])),
            map_singleton, symbol_percent]
        · split
          · next rest hrest =>
            obtain rfl := stripPrefix_eq_some.mp hrest
            simp only [countP_cons, decide_true, if_true] at hcount
            apply compiled_shape hesc _ means_suffixOf
            rw [map_cons, map_symbol_eq (hnone _ (by omega)) (fun h => hund (by simp [h])),
              symbol_percent]
          · exact compiled_generic
      · next hcount =>
        split
        · next mid hmid =>
          obtain ⟨rest, hrest, hmid⟩ := Option.bind_eq_some_iff.mp hmid
          obtain rfl := stripPrefix_eq_some.mp hrest
          obtain rfl := stripSuffix_eq_some.mp hmid
          simp only [countP_cons, countP_append, decide_true, if_true] at hcount
          apply compiled_shape hesc _ means_contains
          rw [map_cons, map_append, map_symbol_eq (hnone _ (by omega))
            (fun h => hund (by simp [h])), map_singleton, symbol_percent]
        · exact compiled_generic
      · exact compiled_generic

theorem compiled_compileShape :
  Compiled lower caseInsensitive escape pattern
    (compileShape debug pattern escape caseInsensitive)
  := by
  cases caseInsensitive with
  | true => exact compiled_generic
  | false => exact compiled_classify

/-- The escape character is a wildcard. -/
def wildcardIsEscape (escape : Option Char) : Prop := ∃ c, escape = some c ∧ isWildcard c = true

theorem checkEscape_fails :
  (∃ e, checkEscape debug escape = .error e) ↔ wildcardIsEscape escape
  := by
  cases escape with
  | none => simp [checkEscape, wildcardIsEscape]
  | some c => cases h : isWildcard c <;> simp [checkEscape, wildcardIsEscape, h]

theorem compileCi_fails {pattern : String} :
  (∃ e, compileCi debug pattern escape caseInsensitive = .error e) ↔
    wildcardIsEscape escape ∨ dangling escape pattern.toList = true
  := by
  have hshape := (@compiled_compileShape debug (fun c => [c]) escape caseInsensitive
    pattern.toList).fails
  rw [← @checkEscape_fails debug, ← hshape, compileCi]
  cases checkEscape debug escape with
  | error e => exact ⟨fun _ => .inl ⟨e, rfl⟩, fun _ => ⟨e, rfl⟩⟩
  | ok u =>
    rw [or_iff_right (by rintro ⟨e, ⟨⟩⟩)]
    cases compileShape debug pattern.toList escape caseInsensitive with
    | error e => exact ⟨fun _ => ⟨e, rfl⟩, fun _ => ⟨e, rfl⟩⟩
    | ok shape =>
      constructor
      · rintro ⟨e, ⟨⟩⟩
      · rintro ⟨e, ⟨⟩⟩

theorem compileCi_means {pattern : String} {matcher : PatternMatcher}
    (h : compileCi debug pattern escape caseInsensitive = .ok matcher) :
  matcher.caseInsensitive = caseInsensitive ∧
    matcher.shape.Means lower caseInsensitive (symbols escape pattern.toList)
  := by
  obtain ⟨-, -, h⟩ := bind_eq_ok.mp h
  obtain ⟨shape, hshape, h⟩ := bind_eq_ok.mp h
  cases h
  exact ⟨rfl, compiled_compileShape.means shape hshape⟩

end Compile

/--
The matcher implements `LIKE`: it is compiled unless the escape is a wildcard or dangles, and it
then accepts the language of the pattern. A character of the pattern stands for itself and, without
regard to case, for every character with the same lower case.
-/
theorem like_correct (debug : Char → String) (lower : Char → List Char) (pattern : String)
    (escape : Option Char) (caseInsensitive : Bool) :
  ((∃ e, compileCi debug pattern escape caseInsensitive = .error e) ↔
      wildcardIsEscape escape ∨ dangling escape pattern.toList = true) ∧
    ∀ matcher, compileCi debug pattern escape caseInsensitive = .ok matcher →
      ∀ s : String, ∃ result, matcher.matches lower s = some result ∧
        (result = true ↔
          Accepts (fun a b => decide (a = b ∨ caseInsensitive = true ∧ lower a = lower b))
            (symbols escape pattern.toList) s.toList)
  := by
  refine ⟨compileCi_fails, ?_⟩
  intro matcher h s
  obtain ⟨rfl, hmeans⟩ := @compileCi_means debug lower _ _ _ _ h
  have hsame : charsEq lower matcher.caseInsensitive =
      fun a b => decide (a = b ∨ matcher.caseInsensitive = true ∧ lower a = lower b) := by
    funext a b
    cases hcase : matcher.caseInsensitive <;> simp [charsEq, charsEqCi, Bool.beq_eq_decide_eq]
  rw [← hsame]
  exact hmeans s

/-- An escaped `%` stands for itself, the `%` behind it for any string, and `A` also for `a`. -/
theorem like_correct_escaped :
  Accepts (fun a b => decide (a = b ∨ true = true ∧ [a.toLower] = [b.toLower]))
      (symbols (some '!') "A!%%".toList) "a%b".toList ∧
    ¬ Accepts (fun a b => decide (a = b ∨ false = true ∧ [a.toLower] = [b.toLower]))
      (symbols (some '!') "A!%%".toList) "a%b".toList
  := by
  have hlike (caseInsensitive : Bool) :=
    (like_correct Char.toString (fun c => [c.toLower]) "A!%%" (some '!') caseInsensitive).2
      ⟨.generic [.literal ['A', '%'], .any], caseInsensitive⟩ (by cases caseInsensitive <;> decide)
      "a%b"
  constructor
  · obtain ⟨result, hresult, hiff⟩ := hlike true
    exact hiff.mp (Option.some.inj (hresult.symm.trans (by decide)))
  · obtain ⟨result, hresult, hiff⟩ := hlike false
    rw [← hiff, Option.some.inj (hresult.symm.trans (by decide :
      PatternMatcher.matches (fun c => [c.toLower]) ⟨.generic [.literal ['A', '%'], .any], false⟩
        "a%b" = some false))]
    exact Bool.false_ne_true

/-! ### Columns -/

/-- What `LIKE` or `NOT LIKE` is for a row: `NULL` for `NULL`. -/
def LikeOf (pattern : String) (escape : Option Char) (negated : Bool) :
    Option String → Option Bool → Prop
  | none, r => r = none
  | some s, r => ∃ b, r = some b ∧
    (b = !negated ↔ Accepts (· == ·) (symbols escape pattern.toList) s.toList)

theorem likeRow_spec {lower : Char → List Char} {matcher : PatternMatcher} {pattern : String}
    {escape : Option Char} (hcase : matcher.caseInsensitive = false)
    (hmeans : matcher.shape.Means lower false (symbols escape pattern.toList)) (negated : Bool)
    (row : Option String) :
  ∃ r, likeRow lower matcher negated row = some r ∧ LikeOf pattern escape negated row r
  := by
  cases row with
  | none => exact ⟨none, rfl, rfl⟩
  | some s =>
    obtain ⟨result, hresult, hacc⟩ := hmeans s
    rw [← hcase] at hresult
    refine ⟨some (if negated then !result else result), by simp [likeRow, hresult], _, rfl, ?_⟩
    have hacc' : result = true ↔
        Accepts (· == ·) (symbols escape pattern.toList) s.toList := hacc
    rw [← hacc']
    cases negated <;> simp

/-- `host_like` gives every row its answer in the three-valued logic. -/
theorem hostLike_spec (debug : Char → String) (lower : Char → List Char)
    (col : List (Option String)) (pattern : String) (escape : Option Char) (negated : Bool) :
  (∃ e, hostLike debug lower col pattern escape negated = .error e ∧
      (wildcardIsEscape escape ∨ dangling escape pattern.toList = true)) ∨
    ∃ rows, hostLike debug lower col pattern escape negated = .ok (some rows) ∧
      Forall₂ (LikeOf pattern escape negated) col rows
  := by
  unfold hostLike compile
  cases hc : compileCi debug pattern escape false with
  | error e => exact .inl ⟨e, rfl, compileCi_fails.mp ⟨e, hc⟩⟩
  | ok matcher =>
    obtain ⟨hcase, hmeans⟩ := @compileCi_means debug lower _ _ _ _ hc
    have hrows : ∃ rows, col.mapM (likeRow lower matcher negated) = some rows ∧
        Forall₂ (LikeOf pattern escape negated) col rows := by
      induction col with
      | nil => exact ⟨[], rfl, .nil⟩
      | cons row col ih =>
        obtain ⟨r, hr, hlike⟩ := likeRow_spec hcase hmeans negated row
        obtain ⟨rows, hrows, hall⟩ := ih
        exact ⟨r :: rows, by simp [hr, hrows], .cons hlike hall⟩
    obtain ⟨rows, hrows, hall⟩ := hrows
    exact .inr ⟨rows, by rw [← hrows]; rfl, hall⟩

end CratonBolt.Like
