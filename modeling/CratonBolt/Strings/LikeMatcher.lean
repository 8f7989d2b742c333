import CratonBolt.Library.Outcome
import CratonBolt.Strings.Like

/-!
# The matcher accepts the language of its pattern

The tokens of a pattern have the language of its symbols, and so have the shapes that are matched on
bytes. The loop over characters keeps an invariant: the input is accepted if the tokens at the
cursor accept the rest of it, or those behind the last `%` accept a rest further right. Every round
moves the cursor or the place to resume, so the loop returns within its bound.
-/

namespace CratonBolt.Like

open Wildcards List Option

variable {t : Token} {escape : Option Char}

/-! ### Tokens -/

/-- The symbols of a token. -/
def Token.symbols : Token → List (Symbol Char)
  | .literal lit => lit.map .exactly
  | .one => [.one]
  | .any => [.any]

/-- The symbols of a list of tokens. -/
def tokenSymbols (tokens : List Token) : List (Symbol Char) := tokens.flatMap Token.symbols

@[simp]
theorem tokenSymbols_append (ts us : List Token) :
  tokenSymbols (ts ++ us) = tokenSymbols ts ++ tokenSymbols us
  := flatMap_append

@[simp]
theorem tokenSymbols_singleton (t : Token) :
  tokenSymbols [t] = t.symbols
  := append_nil _

theorem tokenSymbols_flush (out : List Token) (buf : List Char) :
  tokenSymbols (flush out buf) = tokenSymbols out ++ buf.map .exactly
  := by
  cases buf with
  | nil => simp [flush]
  | cons c buf => simp [flush, Token.symbols]

theorem symbols_cons_of_ne {c : Char} (h : escape ≠ some c) (cs : List Char) :
  symbols escape (c :: cs) = symbol c :: symbols escape cs
  := by
  cases cs <;> simp [symbols, h]

theorem dangling_cons_of_ne {c : Char} (h : escape ≠ some c) (cs : List Char) :
  dangling escape (c :: cs) = dangling escape cs
  := by
  cases cs <;> simp [dangling, h]

theorem tokeniseLoop_cons_of_ne (debug : Char → String) {c : Char} (h : escape ≠ some c)
    (cs : List Char) (out : List Token) (buf : List Char) :
  tokeniseLoop debug escape (c :: cs) out buf =
    if c = '%' then tokeniseLoop debug escape cs (pushAny (flush out buf)) []
    else if c = '_' then tokeniseLoop debug escape cs (flush out buf ++ [.one]) []
    else tokeniseLoop debug escape cs out (buf ++ [c])
  := by
  cases cs <;> simp [tokeniseLoop, h]

section Language

variable {eq : Char → Char → Bool}

/-- Leaving out a repeated `%` does not change the language. -/
theorem accepts_pushAny (out : List Token) (ps : List (Symbol Char)) (s : List Char) :
  Accepts eq (tokenSymbols (pushAny out) ++ ps) s ↔ Accepts eq (tokenSymbols out ++ .any :: ps) s
  := by
  unfold pushAny
  split
  · next h =>
    obtain ⟨front, rfl⟩ := getLast?_eq_some_iff.mp h
    rw [tokenSymbols_append, tokenSymbols_singleton, Token.symbols, append_assoc,
      append_assoc]
    exact accepts_append_congr (fun _ => accepts_any_any.symm) _ _
  · simp [Token.symbols]

/-- What the loop of `tokenise` returns: an error, or tokens of the language of the pattern. -/
theorem tokeniseLoop_spec (debug : Char → String) (escape : Option Char) (chars : List Char)
    (out : List Token) (buf : List Char) :
  ((∃ e, tokeniseLoop debug escape chars out buf = .error e) ↔ dangling escape chars = true) ∧
    ∀ tokens, tokeniseLoop debug escape chars out buf = .ok tokens →
      ∀ s, Accepts eq (tokenSymbols tokens) s ↔
        Accepts eq (tokenSymbols out ++ buf.map .exactly ++ symbols escape chars) s
  := by
  induction chars, out, buf using tokeniseLoop.induct escape with
  | case1 out buf =>
    simp [tokeniseLoop, dangling, symbols, tokenSymbols_flush]
  | case2 ch out buf hesc next chars ih =>
    simpa [tokeniseLoop, dangling, symbols, hesc] using ih
  | case3 ch out buf hesc => simp [tokeniseLoop, dangling, hesc]
  | case4 chars out buf hesc ih =>
    rw [tokeniseLoop_cons_of_ne debug hesc, dangling_cons_of_ne hesc, symbols_cons_of_ne hesc,
      symbol, if_pos rfl, if_pos rfl]
    refine ⟨ih.1, ?_⟩
    intro tokens htok s
    rw [ih.2 tokens htok, map_nil, append_nil, accepts_pushAny, tokenSymbols_flush]
  | case5 chars out buf hesc hpct ih =>
    rw [tokeniseLoop_cons_of_ne debug hesc, dangling_cons_of_ne hesc, symbols_cons_of_ne hesc,
      symbol, if_neg hpct, if_neg hpct, if_pos rfl, if_pos rfl]
    refine ⟨ih.1, ?_⟩
    intro tokens htok s
    rw [ih.2 tokens htok]
    simp [tokenSymbols_flush, Token.symbols]
  | case6 ch chars out buf hesc hpct hund ih =>
    rw [tokeniseLoop_cons_of_ne debug hesc, dangling_cons_of_ne hesc, symbols_cons_of_ne hesc,
      symbol, if_neg hpct, if_neg hpct, if_neg hund, if_neg hund]
    refine ⟨ih.1, ?_⟩
    intro tokens htok s
    rw [ih.2 tokens htok]
    simp

end Language

/-! ### The loop -/

section Loop

variable {eq : Char → Char → Bool} {chars : List Char} {tokens : List Token} {c c' : Cursor}

theorem literalEnd_eq_some {k k' : Nat} {lit : List Char} (hk : k ≤ chars.length)
    (h : literalEnd eq chars k lit = some k') :
  k' = k + lit.length ∧ k' ≤ chars.length ∧ ∀ ps,
    Accepts eq (lit.map .exactly ++ ps) (chars.drop k) ↔ Accepts eq ps (chars.drop k')
  := by
  induction lit generalizing k with
  | nil =>
    obtain rfl := some.inj h
    exact ⟨rfl, hk, fun ps => Iff.rfl⟩
  | cons lc lit ih =>
    rw [literalEnd] at h
    cases hc : chars[k]? with
    | none => simp [hc] at h
    | some ch =>
      simp only [hc] at h
      split at h
      · next heq =>
        obtain ⟨hlt, rfl⟩ := List.getElem?_eq_some_iff.mp hc
        obtain ⟨hk', hle, hacc⟩ := ih hlt h
        refine ⟨by simp [hk']; omega, hle, ?_⟩
        intro ps
        rw [← hacc ps, drop_eq_getElem_cons hlt, map_cons, cons_append,
          accepts_exactly_cons, heq]
        simp
      · cases h

theorem literalEnd_eq_none {k : Nat} {lit : List Char} (h : literalEnd eq chars k lit = none)
    (ps : List (Symbol Char)) :
  ¬Accepts eq (lit.map .exactly ++ ps) (chars.drop k)
  := by
  induction lit generalizing k with
  | nil => cases h
  | cons lc lit ih =>
    rw [literalEnd] at h
    rintro ⟨ch, v, hdrop, heq, hacc⟩
    have hlt : k < chars.length := by
      rw [← Nat.sub_pos_iff_lt, ← length_drop, hdrop]
      simp
    rw [drop_eq_getElem_cons hlt, List.cons.injEq] at hdrop
    obtain ⟨rfl, rfl⟩ := hdrop
    simp only [getElem?_eq_getElem hlt, heq, if_true] at h
    exact ih h hacc

/-- The symbols of the tokens from a position on. -/
def symbolsFrom (tokens : List Token) (t : Nat) : List (Symbol Char) := tokenSymbols (tokens.drop t)

theorem symbolsFrom_of_getElem? {i : Nat} (h : tokens[i]? = some t) :
  symbolsFrom tokens i = t.symbols ++ symbolsFrom tokens (i + 1)
  := by
  obtain ⟨hlt, rfl⟩ := List.getElem?_eq_some_iff.mp h
  rw [symbolsFrom, drop_eq_getElem_cons hlt]
  rfl

/-- What it means for the loop to move on over a token that is not `%`. -/
structure Consumes (eq : Char → Char → Bool) (chars : List Char) (t : Token) (c c' : Cursor) :
    Prop where
  cursor : c' = ⟨c.sIdx + t.symbols.length, c.tIdx + 1, c.starTok, c.starS⟩
  le : c'.sIdx ≤ chars.length
  accepts : ∀ ps, Accepts eq (t.symbols ++ ps) (chars.drop c.sIdx) ↔
    Accepts eq ps (chars.drop c'.sIdx)

theorem advance_eq_some (ht : tokens[c.tIdx]? = some t) (hne : t ≠ .any)
    (hs : c.sIdx ≤ chars.length) (h : advance eq chars tokens c = some c') :
  Consumes eq chars t c c'
  := by
  cases t with
  | any => exact absurd rfl hne
  | one =>
    simp only [advance, ht] at h
    split at h
    · next hlt =>
      obtain rfl := some.inj h
      refine ⟨rfl, hlt, ?_⟩
      intro ps
      rw [drop_eq_getElem_cons hlt, Token.symbols, singleton_append, accepts_one_cons]
    · cases h
  | literal lit =>
    simp only [advance, ht, map_eq_some_iff] at h
    obtain ⟨k, hk, rfl⟩ := h
    obtain ⟨rfl, hle, hacc⟩ := literalEnd_eq_some hs hk
    exact ⟨by simp [Token.symbols], hle, hacc⟩

theorem advance_eq_none (ht : tokens[c.tIdx]? = some t) (h : advance eq chars tokens c = none)
    (ps : List (Symbol Char)) :
  ¬Accepts eq (t.symbols ++ ps) (chars.drop c.sIdx)
  := by
  cases t with
  | any => simp [advance, ht] at h
  | one =>
    simp only [advance, ht] at h
    split at h
    · cases h
    · next hge =>
      rw [drop_eq_nil_of_le (by omega)]
      rintro ⟨ch, v, hnil, -⟩
      cases hnil
  | literal lit =>
    simp only [advance, ht, map_eq_none_iff] at h
    exact literalEnd_eq_none h ps

/-- The tokens behind the last `%` accept the input from a position right of the last try. -/
def Resumes (eq : Char → Char → Bool) (chars : List Char) (tokens : List Token) (c : Cursor) :
    Prop :=
  ∃ tok k, c.starTok = some tok ∧ c.starS < k ∧ k ≤ chars.length ∧
    Accepts eq (symbolsFrom tokens tok) (chars.drop k)

/--
Between the last `%` and the cursor there are symbols of one character each, which took the
characters from the place of the last try to the cursor.
-/
structure Invariant (eq : Char → Char → Bool) (chars : List Char) (tokens : List Token)
    (c : Cursor) : Prop where
  sIdx_le : c.sIdx ≤ chars.length
  tIdx_le : c.tIdx ≤ tokens.length
  starS_le : c.starS ≤ c.sIdx
  star : ∀ tok, c.starTok = some tok → tok ≤ tokens.length ∧ ∃ seg,
    symbolsFrom tokens tok = seg ++ symbolsFrom tokens c.tIdx ∧
      (∀ q ∈ seg, q.fixed = true) ∧ seg.length = c.sIdx - c.starS
  accepts : Accepts eq (tokenSymbols tokens) chars ↔
    Accepts eq (symbolsFrom tokens c.tIdx) (chars.drop c.sIdx) ∨ Resumes eq chars tokens c

theorem Invariant.start :
  Invariant eq chars tokens ⟨0, 0, none, 0⟩
  := by
  refine ⟨Nat.zero_le _, Nat.zero_le _, Nat.le_refl _, by simp, ?_⟩
  simp [Resumes, symbolsFrom]

/-- Trying the last `%` further right finds nothing that a `%` at the cursor does not find. -/
theorem Invariant.accepts_any_of_resumes {ps : List (Symbol Char)} (h : Invariant eq chars tokens c)
    (hps : symbolsFrom tokens c.tIdx = .any :: ps) (hr : Resumes eq chars tokens c) :
  Accepts eq (.any :: ps) (chars.drop c.sIdx)
  := by
  obtain ⟨tok, k, htok, hk, hle, hacc⟩ := hr
  obtain ⟨-, seg, hseg, hfixed, hlen⟩ := h.star tok htok
  rw [hseg, hps] at hacc
  obtain ⟨-, hrest⟩ := hacc.of_fixed_append hfixed
  apply hrest.any_of_isSuffix
  have hstart := h.starS_le
  have hdrop : (chars.drop k).drop seg.length =
      (chars.drop c.sIdx).drop (k + seg.length - c.sIdx) := by
    rw [drop_drop, drop_drop]
    congr 1
    omega
  rw [hdrop]
  apply drop_suffix

/-- A new `%` replaces the last one. -/
theorem Invariant.any (h : Invariant eq chars tokens c) (ht : tokens[c.tIdx]? = some .any) :
  Invariant eq chars tokens ⟨c.sIdx, c.tIdx + 1, some (c.tIdx + 1), c.sIdx⟩
  := by
  obtain ⟨hlt, -⟩ := List.getElem?_eq_some_iff.mp ht
  have hsym := symbolsFrom_of_getElem? ht
  refine ⟨h.sIdx_le, hlt, Nat.le_refl _, ?_, ?_⟩
  · rintro tok htok
    obtain rfl := some.inj htok
    exact ⟨hlt, [], rfl, by simp, by simp⟩
  · have hold : Accepts eq (symbolsFrom tokens c.tIdx) (chars.drop c.sIdx) ∨
        Resumes eq chars tokens c ↔
        Accepts eq (.any :: symbolsFrom tokens (c.tIdx + 1)) (chars.drop c.sIdx) := by
      rw [hsym]
      constructor
      · rintro (hacc | hr)
        · exact hacc
        · exact h.accepts_any_of_resumes hsym hr
      · exact .inl
    rw [h.accepts, hold, accepts_any_iff]
    constructor
    · rintro ⟨k, hk, hacc⟩
      rw [drop_drop] at hacc
      cases k with
      | zero => exact .inl hacc
      | succ k =>
        rw [length_drop] at hk
        exact .inr ⟨c.tIdx + 1, c.sIdx + (k + 1), rfl, by simp, by omega, hacc⟩
    · rintro (hacc | ⟨tok, k, htok, hk, hle, hacc⟩)
      · exact ⟨0, Nat.zero_le _, hacc⟩
      · obtain rfl := some.inj htok
        refine ⟨k - c.sIdx, by rw [length_drop]; omega, ?_⟩
        rw [drop_drop]
        have hk' : c.sIdx + (k - c.sIdx) = k := by
          have := hk
          dsimp only at this
          omega
        rwa [hk']

theorem Token.fixed_symbols (hne : t ≠ .any) :
  ∀ q ∈ t.symbols, q.fixed = true
  := by
  intro q hq
  cases t with
  | any => exact absurd rfl hne
  | one =>
    obtain rfl := mem_singleton.mp hq
    rfl
  | literal lit =>
    obtain ⟨ch, -, rfl⟩ := List.mem_map.mp hq
    rfl

theorem Invariant.consumes (h : Invariant eq chars tokens c) (ht : tokens[c.tIdx]? = some t)
    (hne : t ≠ .any) (hc : Consumes eq chars t c c') :
  Invariant eq chars tokens c'
  := by
  obtain ⟨rfl, hle, hacc⟩ := hc
  obtain ⟨hlt, -⟩ := List.getElem?_eq_some_iff.mp ht
  have hsym := symbolsFrom_of_getElem? ht
  have hstart := h.starS_le
  refine ⟨hle, hlt, Nat.le_trans hstart (Nat.le_add_right _ _), ?_, ?_⟩
  · intro tok htok
    obtain ⟨htl, seg, hseg, hfixed, hlen⟩ := h.star tok htok
    refine ⟨htl, seg ++ t.symbols, by rw [hseg, hsym, append_assoc], ?_, ?_⟩
    · intro q hq
      obtain hq | hq := mem_append.mp hq
      · exact hfixed q hq
      · exact Token.fixed_symbols hne q hq
    · rw [length_append, hlen]
      dsimp only
      omega
  · rw [h.accepts, hsym, hacc]
    rfl

/-- Resuming one character further right. -/
theorem Invariant.resume {tok : Nat} (h : Invariant eq chars tokens c)
    (hfail : ¬Accepts eq (symbolsFrom tokens c.tIdx) (chars.drop c.sIdx))
    (htok : c.starTok = some tok) (hlt : c.starS < chars.length) :
  Invariant eq chars tokens ⟨c.starS + 1, tok, some tok, c.starS + 1⟩
  := by
  obtain ⟨htl, -⟩ := h.star tok htok
  refine ⟨hlt, htl, Nat.le_refl _, ?_, ?_⟩
  · rintro tok' htok'
    obtain rfl := some.inj htok'
    exact ⟨htl, [], rfl, by simp, by simp⟩
  · rw [h.accepts, or_iff_right hfail]
    constructor
    · rintro ⟨tok', k, htok', hk, hle, hacc⟩
      obtain rfl := some.inj (htok.symm.trans htok')
      by_cases hnext : k = c.starS + 1
      · rw [hnext] at hacc
        exact .inl hacc
      · exact .inr ⟨tok, k, rfl, by dsimp only; omega, hle, hacc⟩
    · rintro (hacc | ⟨tok', k, htok', hk, hle, hacc⟩)
      · exact ⟨tok, c.starS + 1, htok, Nat.lt_succ_self _, hlt, hacc⟩
      · obtain rfl := some.inj htok'
        exact ⟨tok, k, htok, Nat.lt_of_succ_lt hk, hle, hacc⟩

/-- No rounds are left when this reaches zero. -/
def remaining (chars : List Char) (tokens : List Token) (c : Cursor) : Nat :=
  (chars.length - c.starS) * (tokens.length + 1) + (tokens.length - c.tIdx)

/-- A cursor further right in the tokens, with no earlier place to resume. -/
theorem remaining_lt_of_advance (hs : c.starS ≤ c'.starS) (ht : c'.tIdx = c.tIdx + 1)
    (hlt : c.tIdx < tokens.length) :
  remaining chars tokens c' < remaining chars tokens c
  := by
  have hmul := Nat.mul_le_mul_right (tokens.length + 1) (Nat.sub_le_sub_left hs chars.length)
  unfold remaining
  omega

theorem remaining_lt_of_resume (hs : c'.starS = c.starS + 1) (hlt : c.starS < chars.length) :
  remaining chars tokens c' < remaining chars tokens c
  := by
  have hsplit : chars.length - c.starS = (chars.length - c'.starS) + 1 := by omega
  unfold remaining
  rw [hsplit, Nat.add_mul, Nat.one_mul]
  omega

/-- The token at the cursor matched. -/
theorem Invariant.advance (h : Invariant eq chars tokens c)
    (hadv : Like.advance eq chars tokens c = some c') :
  Invariant eq chars tokens c' ∧ remaining chars tokens c' < remaining chars tokens c
  := by
  cases ht : tokens[c.tIdx]? with
  | none => simp [Like.advance, ht] at hadv
  | some t =>
    obtain ⟨hlt, -⟩ := List.getElem?_eq_some_iff.mp ht
    by_cases hany : t = .any
    · subst hany
      simp only [Like.advance, ht, some.injEq] at hadv
      subst hadv
      exact ⟨h.any ht, remaining_lt_of_advance h.starS_le rfl hlt⟩
    · have hc := advance_eq_some ht hany h.sIdx_le hadv
      refine ⟨h.consumes ht hany hc, ?_⟩
      obtain ⟨rfl, -, -⟩ := hc
      exact remaining_lt_of_advance (Nat.le_refl _) rfl hlt

/-- Where the loop cannot move on, the tokens at the cursor do not accept the rest. -/
theorem Invariant.not_accepts (h : Invariant eq chars tokens c)
    (hend : ¬(c.tIdx = tokens.length ∧ c.sIdx = chars.length))
    (hadv : Like.advance eq chars tokens c = none) :
  ¬Accepts eq (symbolsFrom tokens c.tIdx) (chars.drop c.sIdx)
  := by
  cases ht : tokens[c.tIdx]? with
  | none =>
    rw [List.getElem?_eq_none_iff] at ht
    intro hacc
    rw [symbolsFrom, drop_eq_nil_of_le ht] at hacc
    have hdrop : chars.drop c.sIdx = [] := hacc
    rw [drop_eq_nil_iff] at hdrop
    have hs := h.sIdx_le
    have htl := h.tIdx_le
    omega
  | some t =>
    rw [symbolsFrom_of_getElem? ht]
    exact advance_eq_none ht hadv _

/-- The right answer, or a cursor that keeps the invariant and is nearer to the end. -/
def Step.Right (eq : Char → Char → Bool) (chars : List Char) (tokens : List Token) (c : Cursor) :
    Step → Prop
  | .done result => result = true ↔ Accepts eq (tokenSymbols tokens) chars
  | .next c' => Invariant eq chars tokens c' ∧ remaining chars tokens c' < remaining chars tokens c

theorem Invariant.backtrack (h : Invariant eq chars tokens c)
    (hfail : ¬Accepts eq (symbolsFrom tokens c.tIdx) (chars.drop c.sIdx)) :
  (Like.backtrack chars c).Right eq chars tokens c
  := by
  unfold Like.backtrack
  cases htok : c.starTok with
  | none => simp [Step.Right, h.accepts, hfail, Resumes, htok]
  | some tok =>
    by_cases hlt : c.starS < chars.length
    · simp only [hlt, if_true]
      exact ⟨h.resume hfail htok hlt, remaining_lt_of_resume rfl hlt⟩
    · simp only [hlt, if_false, Step.Right, h.accepts, or_iff_right hfail]
      constructor
      · rintro ⟨⟩
      · rintro ⟨-, k, -, hk, hle, -⟩
        omega

theorem Invariant.matchStep (h : Invariant eq chars tokens c) :
  (Like.matchStep eq chars tokens c).Right eq chars tokens c
  := by
  unfold Like.matchStep
  by_cases hend : c.tIdx = tokens.length ∧ c.sIdx = chars.length
  · rw [if_pos hend, Step.Right, h.accepts, hend.1, hend.2]
    simp [symbolsFrom, tokenSymbols, Accepts]
  · rw [if_neg hend]
    cases hadv : Like.advance eq chars tokens c with
    | some c' => exact h.advance hadv
    | none => exact h.backtrack (h.not_accepts hend hadv)

theorem matchLoop_spec {rounds : Nat} (h : Invariant eq chars tokens c)
    (hrounds : remaining chars tokens c < rounds) :
  ∃ result, matchLoop eq chars tokens rounds c = some result ∧
    (result = true ↔ Accepts eq (tokenSymbols tokens) chars)
  := by
  induction rounds generalizing c with
  | zero => exact absurd hrounds (Nat.not_lt_zero _)
  | succ rounds ih =>
    have hstep := h.matchStep
    rw [matchLoop]
    cases hs : Like.matchStep eq chars tokens c with
    | done result =>
      rw [hs] at hstep
      exact ⟨result, rfl, hstep⟩
    | next c' =>
      rw [hs] at hstep
      exact ih hstep.1 (Nat.lt_of_lt_of_le hstep.2 (Nat.le_of_lt_succ hrounds))

/-- The loop returns within its bound, and accepts the language of the tokens. -/
theorem genericMatch_spec (eq : Char → Char → Bool) (chars : List Char) (tokens : List Token) :
  ∃ result, genericMatch eq chars tokens = some result ∧
    (result = true ↔ Accepts eq (tokenSymbols tokens) chars)
  := by
  apply matchLoop_spec Invariant.start
  simp only [remaining, Nat.sub_zero, Nat.add_mul, Nat.one_mul]
  omega

end Loop

end CratonBolt.Like
