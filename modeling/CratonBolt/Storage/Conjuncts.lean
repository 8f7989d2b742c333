import CratonBolt.Semantics.Filters
import CratonBolt.Storage.ZoneMaps

/-!
# What a filter implies for a column

The predicates taken from a filter only ever weaken it: on a row on which the filter is true, each
of its conjuncts is true, and the predicate made from a conjunct holds of the value that the row has
in the column it is about.
-/

namespace CratonBolt.Storage

open Outcome List Option
open Value (atType compare compareOn compareSame isNull truth unary)

variable {Q : Type} {B : Builtins} {S : Subqueries Q} {s : Schema} {row : Row}
variable {sub : Q → Nat → BoltResult Schema} {e : Expr Q} {p : PrunePredicate} {op : PruneOp}
variable {l r : Expr Q} {x : Value} {depth : Nat}

/-! ### Conjuncts -/

/-- A predicate that is well typed and true on a row. -/
structure TrueOn (B : Builtins) (S : Subqueries Q) (s : Schema) (row : Row) (e : Expr Q) :
    Prop where
  typed : ∃ depth, e.dtypeDepth S.schema s depth = .ok .bool
  holds : e.holds B S s row = true

theorem isNullLit_of_holds (h : e.holds B S s row = true) :
  e.isNullLit = false
  := by
  cases e with
  | literal lit =>
    cases lit with
    | null => simp [Expr.holds, Expr.eval, Value.isTrue, truth] at h
    | _ => rfl
  | _ => rfl

variable {t a b : DataType} {n : String} {v : Literal}

/-- The operands of a binary expression that are not bare `NULL`s are typed on their own. -/
theorem dtypeDepth_binary {op : BinaryOp}
    (h : (Expr.binary op l r).dtypeDepth sub s depth = .ok t) :
  ∃ a b, (l.isNullLit = false → l.dtypeDepth sub s 0 = .ok a) ∧
    (r.isNullLit = false → r.dtypeDepth sub s 0 = .ok b) ∧ binaryDtype op a b = .ok t
  := by
  rw [Expr.dtypeDepth] at h
  split at h
  · cases h
  simp only [bind_eq_ok] at h
  obtain ⟨a, ha, b, hb, hab⟩ := h
  refine ⟨a, b, ?_, ?_, hab⟩
  · intro hl
    simpa [peerTypedDtype, hl] using ha
  · intro hr
    simpa [peerTypedDtype, hr] using hb

theorem binaryDtype_logical {op : BinaryOp} (hop : op = .and ∨ op = .or)
    (h : binaryDtype op a b = .ok t) :
  a = .bool ∧ b = .bool
  := by
  obtain rfl | rfl := hop <;>
    simp [binaryDtype, BinaryOp.isArithmetic, BinaryOp.isComparison, BinaryOp.isLogical] at h <;>
    exact h.1

theorem TrueOn.and (h : TrueOn B S s row (.binary .and l r)) :
  TrueOn B S s row l ∧ TrueOn B S s row r
  := by
  obtain ⟨⟨depth, ht⟩, hh⟩ := h
  rw [Expr.holds_and, Bool.and_eq_true] at hh
  obtain ⟨a, b, ha, hb, hab⟩ := dtypeDepth_binary ht
  obtain ⟨rfl, rfl⟩ := binaryDtype_logical (.inl rfl) hab
  exact ⟨⟨⟨0, ha (isNullLit_of_holds hh.1)⟩, hh.1⟩, ⟨⟨0, hb (isNullLit_of_holds hh.2)⟩, hh.2⟩⟩

/-- A disjunction is true when one of its sides is. -/
theorem TrueOn.or (h : TrueOn B S s row (.binary .or l r)) :
  TrueOn B S s row l ∨ TrueOn B S s row r
  := by
  obtain ⟨⟨depth, ht⟩, hh⟩ := h
  obtain ⟨a, b, ha, hb, hab⟩ := dtypeDepth_binary ht
  obtain ⟨rfl, rfl⟩ := binaryDtype_logical (.inr rfl) hab
  have hor : l.holds B S s row = true ∨ r.holds B S s row = true := by
    simpa [Expr.holds, Expr.eval, Value.binary, Value.isTrue_eq_true] using hh
  obtain hl | hr := hor
  · exact .inl ⟨⟨0, ha (isNullLit_of_holds hl)⟩, hl⟩
  · exact .inr ⟨⟨0, hb (isNullLit_of_holds hr)⟩, hr⟩

/-- The conditions of a well-typed `CASE` are predicates. -/
theorem dtypeDepth_case {branches : List (Expr Q × Expr Q)} {elseBranch : Option (Expr Q)}
    (h : (Expr.case branches elseBranch).dtypeDepth sub s depth = .ok t) :
  ∀ b ∈ branches, b.1.dtypeDepth sub s (depth + 1) = .ok .bool
  := by
  rw [Expr.dtypeDepth] at h
  split at h
  · cases h
  split at h
  · cases h
  rw [bind_eq_ok] at h
  obtain ⟨⟨⟩, hw, -⟩ := h
  exact checkWhens_eq_ok.mp hw

theorem isTrue_atType {t : Option DataType} {v : Value} (h : (Value.atType t v).isTrue = true) :
  v ≠ .null ∧ v ≠ .bool false
  := by
  constructor
  · rintro rfl
    cases t with
    | none => simp [atType, Value.isTrue, truth] at h
    | some t => cases t <;> simp [atType, Value.convert, Literal.dtype, Value.isTrue,
        truth] at h
  · rintro rfl
    cases t with
    | none => simp [atType, Value.isTrue, truth] at h
    | some t => cases t <;> simp [atType, Value.convert, Literal.dtype, Value.isTrue,
        truth] at h

/-- Where its condition is not true, a three-valued wrapper is false or `NULL`. -/
theorem evalBranches_threeValued {c w : Expr Q} (hnot : ¬c.holds B S s row = true) :
  evalBranches B S s row .null
      [(c, .literal (.bool true)), (w, .literal (.bool false))] = .bool false ∨
    evalBranches B S s row .null
      [(c, .literal (.bool true)), (w, .literal (.bool false))] = .null
  := by
  rw [Expr.holds] at hnot
  simp only [evalBranches, Expr.eval, if_neg hnot]
  split
  · exact .inl rfl
  · exact .inr rfl

/-- A three-valued wrapper is true only where its condition is. -/
theorem TrueOn.threeValued {e c : Expr Q} (hc : threeValuedCondition e = some c)
    (h : TrueOn B S s row e) :
  TrueOn B S s row c
  := by
  obtain ⟨⟨depth, ht⟩, hh⟩ := h
  have key : ∀ {c w : Expr Q} {elseBranch : Option (Expr Q)},
      evalElse B S s row elseBranch = .null →
      (Expr.case [(c, .literal (.bool true)), (w, .literal (.bool false))] elseBranch).holds
        B S s row = true → c.holds B S s row = true := by
    intro c w elseBranch helse hh
    rw [Expr.holds, Expr.eval, helse] at hh
    obtain ⟨hnull, hfalse⟩ := isTrue_atType hh
    by_contra hnot
    obtain h | h := evalBranches_threeValued (w := w) hnot
    · exact hfalse h
    · exact hnull h
  unfold threeValuedCondition at hc
  split at hc
  · obtain rfl := some.inj hc
    exact ⟨⟨depth + 1, dtypeDepth_case ht (_, _) (mem_cons_self ..)⟩, key rfl hh⟩
  · obtain rfl := some.inj hc
    exact ⟨⟨depth + 1, dtypeDepth_case ht (_, _) (mem_cons_self ..)⟩, key rfl hh⟩
  · cases hc

/-- Where a predicate is true, so are its conjuncts. -/
theorem TrueOn.of_mem_splitAnd (h : TrueOn B S s row e) :
  ∀ c ∈ splitAnd e, TrueOn B S s row c
  := by
  fun_induction splitAnd e with
  | case1 left right ihl ihr =>
    intro c hc
    obtain hc | hc := mem_append.mp hc
    · exact ihl h.and.1 c hc
    · exact ihr h.and.2 c hc
  | case2 c w ih => exact ih (h.threeValued rfl)
  | case3 c w ih => exact ih (h.threeValued rfl)
  | case4 e =>
    intro c hc
    rwa [mem_singleton.mp hc]

/-! ### Predicates -/

def PruneOp.toBinaryOp : PruneOp → BinaryOp
  | eq => .eq
  | notEq => .notEq
  | lt => .lt
  | ltEq => .ltEq
  | gt => .gt
  | gtEq => .gtEq

theorem pruneOp_eq_some {op : BinaryOp} {p : PruneOp} (h : pruneOp op = some p) :
  op = p.toBinaryOp
  := by
  cases op <;> simp [pruneOp] at h <;> subst h <;> rfl

theorem compareWith_flip (op : PruneOp) (eq lt gt : Bool) :
  Value.compareWith op.toBinaryOp eq lt gt = Value.compareWith op.flip.toBinaryOp eq gt lt
  := by
  cases op <;> rfl

theorem compareSame_flip (op : PruneOp) (a b : Value) :
  compareSame op.toBinaryOp a b = compareSame op.flip.toBinaryOp b a
  := by
  cases a <;> cases b <;>
    simp only [compareSame, Value.compareOrd, Value.compareFloat, compareWith_flip op,
      eq_comm, Bool.or_comm]

/-- A comparison with its sides exchanged. -/
theorem compare_flip (op : PruneOp) (a b : Value) :
  compare op.toBinaryOp a b = compare op.flip.toBinaryOp b a
  := by
  unfold Value.compare
  rw [Value.commonType_comm a b]
  cases Value.commonType b a with
  | none => rw [compareSame_flip]
  | some t => exact congrArg Value.ofTruth (compareSame_flip op _ _)

theorem compareOn_flip (nanDiffers : Bool) (op : PruneOp) (a b : Value) :
  compareOn nanDiffers op.toBinaryOp a b = compareOn nanDiffers op.flip.toBinaryOp b a
  := by
  unfold Value.compareOn
  rw [compare_flip, Bool.or_comm]
  have hflip : op.toBinaryOp = .notEq ↔ op.flip.toBinaryOp = .notEq := by
    cases op <;> simp [PruneOp.toBinaryOp, PruneOp.flip]
  simp only [hflip]

/--
The value passes the comparison with a constant of a comparable type. On the host a NaN passes `<>`,
in a kernel it does not.
-/
structure Passes (nanDiffers : Bool) (op : PruneOp) (x : Value) (v : Literal) : Prop where
  comparable : comparableValues x v = true
  isTrue : (compareOn nanDiffers op.toBinaryOp x v).isTrue = true

/-- A value of the column satisfies the predicate. -/
def PrunePredicate.Satisfied (nanDiffers : Bool) (x : Value) : PrunePredicate → Prop
  | compare _ op v => Passes nanDiffers op x v
  | inList _ vs => ∃ v ∈ vs, Passes nanDiffers .eq x v
  | isNull _ => x.isNull = true
  | isNotNull _ => x.isNull = false

/-- A name is read as the value `x`, which is `NULL` or has the type of the name. -/
structure ReadsAs (s : Schema) (row : Row) (x : Value) (n : String) : Prop where
  cell : s.cell row n = x
  typed : ∀ t, s.dtypeOf n = some t → x.isNull = true ∨ x.dtype = some t

theorem columnOf_eq_some {schema : Schema} {table : String} {i : Nat}
    (h : columnOf schema table e = some i) :
  ∃ n, e = .column n ∧ resolveColumn schema table n = some i
  := by
  cases e <;> simp [columnOf] at h
  case column n => exact ⟨n, rfl, h⟩

theorem literalOf_eq_some {l : Literal} (h : literalOf e = some l) :
  e = .literal l ∧ isNull l = false
  := by
  cases e with
  | literal lit => cases lit <;> simp [literalOf] at h <;> subst h <;> exact ⟨rfl, rfl⟩
  | _ => simp [literalOf] at h

theorem dtypeDepth_column (h : (Expr.column n : Expr Q).dtypeDepth sub s depth = .ok t) :
  s.dtypeOf n = some t
  := by
  rw [Expr.dtypeDepth] at h
  split at h
  · cases h
  · exact Schema.map_field_eq_ok.mp h

theorem dtypeDepth_literal {l : Literal}
    (h : (Expr.literal l : Expr Q).dtypeDepth sub s depth = .ok t) :
  l.dtype = some t
  := by
  rw [Expr.dtypeDepth] at h
  split at h
  · cases h
  · split at h
    · next u hu =>
      rw [hu, Except.ok.inj h]
    · cases h

theorem binaryDtype_comparison (h : binaryDtype op.toBinaryOp a b = .ok t) :
  comparable a b = true
  := by
  cases op <;>
    simp [PruneOp.toBinaryOp, binaryDtype, BinaryOp.isArithmetic, BinaryOp.isComparison] at h <;>
    exact h.1

/-- What a comparison that is true says about its sides. -/
theorem binary_isTrue {a b : Value} (h : (Value.binary B op.toBinaryOp a b).isTrue = true) :
  a.isNull = false ∧ b.isNull = false ∧ (compareOn B.nanDiffers op.toBinaryOp a b).isTrue = true
  := by
  have hbin : Value.binary B op.toBinaryOp a b =
      if a.isNull || b.isNull then .null else compareOn B.nanDiffers op.toBinaryOp a b := by
    cases op <;> rfl
  rw [hbin] at h
  split at h
  · simp [Value.isTrue, truth] at h
  · next hn =>
    simp only [Bool.or_eq_true, not_or, Bool.not_eq_true] at hn
    exact ⟨hn.1, hn.2, h⟩

theorem comparableValues_of_dtype {t u : DataType} (hx : x.dtype = some t)
    (hv : v.dtype = some u) (h : comparable t u = true) :
  comparableValues x v = true
  := by
  simp only [comparableValues, hx, hv, h]

theorem comparable_comm (t u : DataType) :
  comparable t u = comparable u t
  := by
  rw [comparable, comparable, Bool.and_comm]
  congr 1
  rw [Bool.eq_iff_iff, beq_iff_eq, beq_iff_eq, eq_comm]

/-- A true comparison of a column with a constant. -/
theorem TrueOn.column_literal
    (h : TrueOn B S s row (.binary op.toBinaryOp (.column n) (.literal v)))
    (hx : ReadsAs s row x n) :
  Passes B.nanDiffers op x v
  := by
  obtain ⟨⟨depth, ht⟩, hh⟩ := h
  rw [Expr.holds, Expr.eval, Expr.eval, Expr.eval, hx.cell] at hh
  obtain ⟨hnx, hnv, hc⟩ := binary_isTrue hh
  obtain ⟨a, b, ha, hb, hab⟩ := dtypeDepth_binary ht
  have hlit : (Expr.literal v : Expr Q).isNullLit = false := by
    cases v <;> first | rfl | simp [isNull] at hnv
  obtain hnull | htx := hx.typed a (dtypeDepth_column (ha rfl))
  · rw [hnull] at hnx
    cases hnx
  · exact ⟨comparableValues_of_dtype htx (dtypeDepth_literal (hb hlit))
      (binaryDtype_comparison hab), hc⟩

/-- A true comparison of a constant with a column. -/
theorem TrueOn.literal_column
    (h : TrueOn B S s row (.binary op.toBinaryOp (.literal v) (.column n)))
    (hx : ReadsAs s row x n) :
  Passes B.nanDiffers op.flip x v
  := by
  obtain ⟨⟨depth, ht⟩, hh⟩ := h
  rw [Expr.holds, Expr.eval, Expr.eval, Expr.eval, hx.cell] at hh
  obtain ⟨hnv, hnx, hc⟩ := binary_isTrue hh
  obtain ⟨a, b, ha, hb, hab⟩ := dtypeDepth_binary ht
  have hlit : (Expr.literal v : Expr Q).isNullLit = false := by
    cases v <;> first | rfl | simp [isNull] at hnv
  obtain hnull | htx := hx.typed b (dtypeDepth_column (hb rfl))
  · rw [hnull] at hnx
    cases hnx
  · refine ⟨comparableValues_of_dtype htx (dtypeDepth_literal (ha hlit)) ?_, ?_⟩
    · rw [comparable_comm]
      exact binaryDtype_comparison hab
    · rwa [← compareOn_flip]

section Arms

variable {schema : Schema} {table : String}

theorem comparisonToPrune_eq_some (h : comparisonToPrune schema table op l r = some p) :
  (∃ n i v, l = .column n ∧ r = .literal v ∧ p = .compare i op v) ∨
    ∃ n i v, l = .literal v ∧ r = .column n ∧ p = .compare i op.flip v
  := by
  unfold comparisonToPrune at h
  split at h
  · next i v hi hv =>
    obtain ⟨n, rfl, -⟩ := columnOf_eq_some hi
    obtain ⟨rfl, -⟩ := literalOf_eq_some hv
    exact .inl ⟨n, i, v, rfl, rfl, (some.inj h).symm⟩
  · split at h
    · next v i hv hi =>
      obtain ⟨n, rfl, -⟩ := columnOf_eq_some hi
      obtain ⟨rfl, -⟩ := literalOf_eq_some hv
      exact .inr ⟨n, i, v, rfl, rfl, (some.inj h).symm⟩
    · cases h

/-- The predicate made from an expression that is no `OR` holds where the expression is true. -/
theorem TrueOn.arm (h : TrueOn B S s row e) (hp : toPruneArm schema table e = some p)
    (hx : ∀ n ∈ e.collectColumns, ReadsAs s row x n) :
  p.Satisfied B.nanDiffers x
  := by
  unfold toPruneArm at hp
  split at hp
  · next op l r =>
    rw [bind_eq_some_iff] at hp
    obtain ⟨pop, hop, hp⟩ := hp
    obtain rfl := pruneOp_eq_some hop
    obtain ⟨n, i, v, rfl, rfl, rfl⟩ | ⟨n, i, v, rfl, rfl, rfl⟩ := comparisonToPrune_eq_some hp
    · exact h.column_literal (hx n (by simp [Expr.collectColumns]))
    · exact h.literal_column (hx n (by simp [Expr.collectColumns]))
  · next operand =>
    rw [map_eq_some_iff] at hp
    obtain ⟨i, hi, rfl⟩ := hp
    obtain ⟨n, rfl, -⟩ := columnOf_eq_some hi
    have hh := h.holds
    rw [Expr.holds, Expr.eval, Expr.eval, (hx n (by simp [Expr.collectColumns])).cell] at hh
    simpa [unary, Value.isTrue, truth, PrunePredicate.Satisfied] using hh
  · next operand =>
    rw [map_eq_some_iff] at hp
    obtain ⟨i, hi, rfl⟩ := hp
    obtain ⟨n, rfl, -⟩ := columnOf_eq_some hi
    have hh := h.holds
    rw [Expr.holds, Expr.eval, Expr.eval, (hx n (by simp [Expr.collectColumns])).cell] at hh
    simpa [unary, Value.isTrue, truth, PrunePredicate.Satisfied] using hh
  · cases hp

theorem toPruneArm_ne_inList {c : Nat} {vs : List Literal} :
  toPruneArm schema table e ≠ some (.inList c vs)
  := by
  intro hp
  unfold toPruneArm at hp
  split at hp
  · rw [bind_eq_some_iff] at hp
    obtain ⟨op, -, hp⟩ := hp
    obtain ⟨n, i, v, -, -, h⟩ | ⟨n, i, v, -, -, h⟩ := comparisonToPrune_eq_some hp <;> cases h
  · simp at hp
  · simp at hp
  · cases hp

/-- The loop over the arms of a disjunction ends with a list that has a value for every arm. -/
theorem equalityArms_eq_some {arms : List (Expr Q)} {column : Option Nat} {values : List Literal}
    (h : equalityArms schema table arms column values = some p) :
  ∃ c vs, p = .inList c vs ∧ (∀ v ∈ values, v ∈ vs) ∧
    ∀ arm ∈ arms, ∃ d, ∃ v ∈ vs, toPruneArm schema table arm = some (.compare d .eq v)
  := by
  induction arms generalizing column values with
  | nil =>
    rw [equalityArms, map_eq_some_iff] at h
    obtain ⟨c, -, rfl⟩ := h
    exact ⟨c, values, rfl, fun v hv => hv, by simp⟩
  | cons arm arms ih =>
    unfold equalityArms at h
    split at h
    · next d v harm =>
      split at h
      · cases h
      · obtain ⟨c, vs, hp, hvs, hrest⟩ := ih h
        refine ⟨c, vs, hp, fun w hw => hvs w (mem_append_left _ hw), ?_⟩
        rw [forall_mem_cons]
        exact ⟨⟨d, v, hvs v (by simp), harm⟩, hrest⟩
    · next harm => exact absurd harm toPruneArm_ne_inList
    · cases h

theorem TrueOn.collectArms (h : TrueOn B S s row e) :
  ∃ arm ∈ collectArms e, TrueOn B S s row arm ∧ ∀ n ∈ arm.collectColumns, n ∈ e.collectColumns
  := by
  fun_induction Storage.collectArms e with
  | case1 l r ihl ihr =>
    obtain hl | hr := h.or
    · obtain ⟨arm, hmem, harm, hcols⟩ := ihl hl
      exact ⟨arm, mem_append_left _ hmem, harm,
        fun n hn => mem_append_left _ (hcols n hn)⟩
    · obtain ⟨arm, hmem, harm, hcols⟩ := ihr hr
      exact ⟨arm, mem_append_right _ hmem, harm,
        fun n hn => mem_append_right _ (hcols n hn)⟩
  | case2 e => exact ⟨e, by simp, h, fun n hn => hn⟩

/-- The predicate made from a conjunct holds where the conjunct is true. -/
theorem TrueOn.satisfied (h : TrueOn B S s row e) (hp : toPrune schema table e = some p)
    (hx : ∀ n ∈ e.collectColumns, ReadsAs s row x n) :
  p.Satisfied B.nanDiffers x
  := by
  unfold toPrune at hp
  split at hp
  · obtain ⟨c, vs, rfl, -, harms⟩ := equalityArms_eq_some hp
    obtain ⟨arm, hmem, harm, hcols⟩ := h.collectArms
    obtain ⟨d, v, hv, hprune⟩ := harms arm hmem
    exact ⟨v, hv, harm.arm hprune (fun n hn => hx n (hcols n hn))⟩
  · exact h.arm hp hx

end Arms

end CratonBolt.Storage
