import CratonBolt.Library.Paging
import CratonBolt.OutOfCore.RowWise

/-!
# Running a chain over groups of rows

`ChunkedRun`: the result of a chain over one table, with a limit and an offset, comes in batches.
Each of them is what the chain returns for a group of rows, less the rows that are still to be
skipped and those that are not wanted any more.

Together the batches are the result for the whole table. The run ends, and it reads no further than
the group with which the limit is reached.
-/

namespace CratonBolt.OutOfCore

open Paging List

variable {Q : Type}

/-- A chain, its limit with the offset, and the least size of a group. -/
structure ChunkedScan (Q : Type) where
  input : LogicalPlan Q
  limit : Option (Nat × Nat)
  table : String
  runRows : Nat
  single : singleBaseTable input = some table
  positive : 0 < runRows

/-- `chunked_shape`, for what the engine knows of its tables. -/
def chunkedShape (estimatedTableBytes : String → Option Nat) (rowCount : String → Nat)
    (runBytes : Nat) (plan : LogicalPlan Q) : Option (ChunkedScan Q) :=
  let (limit, input) : Option (Nat × Nat) × LogicalPlan Q := match plan with
    | .limit input limit offset => (some (limit, offset), input)
    | other => (none, other)
  match hsingle : singleBaseTable input with
  | none => none
  | some table =>
    let rowsTotal := max (rowCount table) 1
    let est := (estimatedTableBytes table).getD (rowsTotal * 64)
    let rowBytes := max (est / rowsTotal) 1
    some { input, limit, table, runRows := max (runBytes / rowBytes) 1024, single := hsingle,
           positive := by omega }

/-- The plan that is run. -/
def ChunkedScan.plan (scan : ChunkedScan Q) : LogicalPlan Q :=
  match scan.limit with
  | some (limit, offset) => .limit scan.input limit offset
  | none => scan.input

theorem chunkedShape_plan {estimatedTableBytes : String → Option Nat} {rowCount : String → Nat}
    {runBytes : Nat} {plan : LogicalPlan Q} {scan : ChunkedScan Q}
    (h : chunkedShape estimatedTableBytes rowCount runBytes plan = some scan) :
  scan.plan = plan
  := by
  unfold chunkedShape at h
  split at h
  next limit input heq =>
  split at h
  · cases h
  · cases h
    cases plan <;> cases heq <;> rfl

/-- The state of a run. -/
structure ChunkedRun where
  source : List (List RawRow)
  skip : Nat
  remaining : Option Nat
  done : Bool

/-- `chunked_run`: the state at the start. -/
def chunkedRun (scan : ChunkedScan Q) (source : List (List RawRow)) : ChunkedRun where
  source := source
  skip := (scan.limit.map Prod.snd).getD 0
  remaining := scan.limit.map Prod.fst
  done := false

/-- The next batches, until they have enough rows: those with rows, what is left, and its end. -/
def readGroup (runRows : Nat) : List (List RawRow) → Nat → List (List RawRow) →
    List (List RawRow) × List (List RawRow) × Bool
  | [], rows, pending => (pending, [], decide (rows < runRows))
  | b :: source, rows, pending =>
    if rows < runRows then
      readGroup runRows source (rows + b.length) (if b.isEmpty then pending else pending ++ [b])
    else (pending, b :: source, false)

/-- The rows of a group that are returned, and the counters behind them. -/
def slices (skip : Nat) (remaining : Option Nat) (rows : List Row) :
    List Row × Nat × Option Nat :=
  -- no group needs more than the rows still wanted
  let out := match remaining with
    | some r => rows.take (r + skip)
    | none => rows
  let s := min skip out.length
  let out := out.drop s
  match remaining with
  | some r => (out.take (min r out.length), skip - s, some (r - min r out.length))
  | none => (out, skip - s, none)

namespace ChunkedRun

variable (B : Builtins) (S : Subqueries Q) (db : Database) (base : Schema) (e : String)
  (scan : ChunkedScan Q)

/-- The run has come to its end. -/
def finished (run : ChunkedRun) : Bool := run.done || run.remaining == some 0

/-- What is still to be skipped and returned. -/
def window (run : ChunkedRun) : Window := ⟨run.skip, run.remaining⟩

/-- One round of the loop in `step`: the rows of a group, possibly none. -/
def round (run : ChunkedRun) : Option (List Row × ChunkedRun) :=
  let (pending, source, ended) := readGroup scan.runRows run.source 0 []
  let done := run.done || ended
  if pending.isEmpty then some ([], { run with source, done })
  else do
    let rows ← (renameScans scan.table e base scan.input).eval B S (install db e pending.flatten)
    let (out, skip, remaining) := slices run.skip run.remaining rows
    some (out, { source, skip, remaining, done })

/-- `step`: the rows of the next group that has some; none if it takes more rounds than given. -/
def step : Nat → ChunkedRun → Option (Option (List Row) × ChunkedRun)
  | 0, _ => none
  | rounds + 1, run =>
    if run.finished then some (none, run)
    else do
      let (out, run) ← run.round B S db base e scan
      if out.isEmpty then step rounds run else some (some out, run)

/-- All batches of the iterator, and its state in the end. -/
def drain : Nat → ChunkedRun → Option (List (List Row) × ChunkedRun)
  | 0, _ => none
  | rounds + 1, run => do
    let (out, run) ← step B S db base e scan (rounds + 1) run
    match out with
    | none => some ([], run)
    | some out =>
      let (outs, run) ← drain rounds run
      some (out :: outs, run)

theorem finished_eq_false {run : ChunkedRun} :
  run.finished = false ↔ run.done = false ∧ run.window.closed = false
  := by
  simp [finished, window, Window.closed]

/-- What is read is one group: it had too few rows before its last batch. -/
def OneGroup (runRows : Nat) (group : List (List RawRow)) : Prop :=
  group.dropLast.flatten.length < runRows

/--
A run reads no further than the group that reaches the limit: before the last group that was read,
rows were still wanted.
-/
def StopsInTime (read : List (List RawRow)) : Prop :=
  ∀ l o, scan.limit = some (l, o) →
    read = [] ∨ ∃ before group kept, read = before ++ group ∧ OneGroup scan.runRows group ∧
      scan.input.eval B S (install db scan.table before.flatten) = some kept ∧
      0 < l ∧ kept.length < l + o

/-! ### One round -/

/-- A group is read from the front of the source, up to its end or to where it is large enough. -/
theorem readGroup_spec (runRows : Nat) (source : List (List RawRow)) (rows : Nat)
    (pending : List (List RawRow)) :
  ∃ group, source = group ++ (readGroup runRows source rows pending).2.1 ∧
    (readGroup runRows source rows pending).1.flatten = pending.flatten ++ group.flatten ∧
    ((readGroup runRows source rows pending).2.2 = true →
      (readGroup runRows source rows pending).2.1 = []) ∧
    (rows < runRows → group ≠ [] ∨ (readGroup runRows source rows pending).2.2 = true) ∧
    (group = [] ∨ rows + group.dropLast.flatten.length < runRows)
  := by
  induction source generalizing rows pending with
  | nil => exact ⟨[], by simp [readGroup]⟩
  | cons b source ih =>
    rw [readGroup]
    by_cases hrows : rows < runRows
    · rw [if_pos hrows]
      obtain ⟨group, hsource, hpending, hended, -, hsmall⟩ :=
        ih (rows + b.length) (if b.isEmpty then pending else pending ++ [b])
      refine ⟨b :: group, by rw [cons_append, ← hsource], ?_, hended,
        fun _ => .inl (cons_ne_nil _ _), .inr ?_⟩
      · rw [hpending]
        cases b <;> simp
      · cases group with
        | nil => simpa using hrows
        | cons b' group =>
          have hsmall := hsmall.resolve_left (cons_ne_nil _ _)
          rw [dropLast_cons_cons, flatten_cons, length_append]
          omega
    · rw [if_neg hrows]
      exact ⟨[], by simp [hrows]⟩

variable {B S db base e scan} {f : RawRow → Option Row} {run run' : ChunkedRun}
  {group read : List (List RawRow)} {out : List Row}

/-- What a round does: it reads a group and returns what is wanted of its rows. -/
structure Advances (scan : ChunkedScan Q) (f : RawRow → Option Row) (run : ChunkedRun)
    (group : List (List RawRow)) (out : List Row) (run' : ChunkedRun) : Prop where
  unfinished : run.finished = false
  source : run.source = group ++ run'.source
  out : out = run.window.page (group.flatten.filterMap f)
  window : run'.window = run.window.after (group.flatten.filterMap f).length
  ended : run'.done = true → run'.source = []
  progress : group ≠ [] ∨ run'.done = true
  oneGroup : OneGroup scan.runRows group

/-- Slicing the rows of a group is looking at it through the window. -/
theorem slices_eq (w : Window) (rows : List Row) :
  slices w.skip w.remaining rows =
    (w.page rows, (w.after rows.length).skip, (w.after rows.length).remaining)
  := by
  rw [← w.page_reach, ← w.after_reach]
  unfold slices Window.page Window.after Window.reach
  cases w.remaining with
  | none =>
    simp only [← drop_eq_drop_min, Option.map_none, Prod.mk.injEq, true_and, and_true]
    omega
  | some r =>
    simp only [← drop_eq_drop_min, ← take_eq_take_min, Option.map_some, Prod.mk.injEq,
      Option.some_inj, true_and]
    rw [length_drop]
    omega

/-- A round advances the run. -/
theorem round_advances (db : Database) (e : String) (hbase : ReadsTable scan.table base scan.input)
    (hf : rowStep B S scan.input = some f) (h : run.finished = false) :
  ∃ group out run', run.round B S db base e scan = some (out, run') ∧
    Advances scan f run group out run'
  := by
  obtain ⟨group, hsource, hpending, hended, hprogress, hsmall⟩ :=
    readGroup_spec scan.runRows run.source 0 []
  obtain ⟨hdone, -⟩ := finished_eq_false.mp h
  have hone : OneGroup scan.runRows group := by
    obtain rfl | hsmall := hsmall
    · exact scan.positive
    · simpa [OneGroup] using hsmall
  unfold round
  generalize readGroup scan.runRows run.source 0 [] = p at *
  obtain ⟨pending, source, ended⟩ := p
  have hkept : pending.flatten.filterMap f = group.flatten.filterMap f := by
    rw [hpending, flatten_nil, nil_append]
  by_cases hempty : pending.isEmpty = true
  · have hnone : group.flatten.filterMap f = [] := by
      rw [← hkept, List.isEmpty_iff.mp hempty]
      rfl
    refine ⟨group, [], { run with source, done := run.done || ended }, by simp [hempty], ?_⟩
    constructor
    · exact h
    · exact hsource
    · rw [hnone, Window.page_nil]
    · rw [hnone, length_nil, Window.after_zero]
      rfl
    · simpa [hdone] using hended
    · simpa [hdone] using hprogress scan.positive
    · exact hone
  · refine ⟨group, run.window.page (group.flatten.filterMap f),
      { source, done := run.done || ended,
        skip := (run.window.after (group.flatten.filterMap f).length).skip,
        remaining := (run.window.after (group.flatten.filterMap f).length).remaining }, ?_, ?_⟩
    · have heval := hbase.eval_group B S db e pending.flatten
      rw [hf, Option.map_some, hkept] at heval
      generalize group.flatten.filterMap f = kept at heval
      have hslices : slices run.skip run.remaining kept = _ := slices_eq run.window kept
      simp [hempty, heval, hslices]
    · constructor
      · exact h
      · exact hsource
      · rfl
      · rfl
      · simpa [hdone] using hended
      · simpa [hdone] using hprogress scan.positive
      · exact hone

/-! ### A whole run -/

/-- Rounds one after the other: what they read and return. -/
inductive Reads (scan : ChunkedScan Q) (f : RawRow → Option Row) :
    ChunkedRun → List (List RawRow) → List Row → ChunkedRun → Prop
  | refl (run : ChunkedRun) : Reads scan f run [] [] run
  | advance {run run' run'' : ChunkedRun} {group read : List (List RawRow)}
      {out rest : List Row} (h : Advances scan f run group out run')
      (hrest : Reads scan f run' read rest run'') :
      Reads scan f run (group ++ read) (out ++ rest) run''

theorem Reads.trans {run'' : ChunkedRun} {read' : List (List RawRow)} {out' : List Row}
    (h : Reads scan f run read out run') (h' : Reads scan f run' read' out' run'') :
  Reads scan f run (read ++ read') (out ++ out') run''
  := by
  induction h with
  | refl => exact h'
  | advance hstep hrest ih =>
    rw [append_assoc, append_assoc]
    exact .advance hstep (ih h')

section

variable (h : Reads scan f run read out run')
include h

theorem Reads.source :
  run.source = read ++ run'.source
  := by
  induction h with
  | refl => rfl
  | advance hstep _ ih => rw [hstep.source, ih, append_assoc]

/-- The window has moved over the rows that were read. -/
theorem Reads.window :
  run'.window = run.window.after (read.flatten.filterMap f).length
  := by
  induction h with
  | refl => simp
  | advance hstep _ ih =>
    rw [ih, hstep.window, Window.after_after, flatten_append, filterMap_append,
      length_append]

/-- What is returned is what the window shows of the rows that were read. -/
theorem Reads.returned :
  out = run.window.page (read.flatten.filterMap f)
  := by
  induction h with
  | refl => simp
  | advance hstep _ ih =>
    rw [ih, hstep.out, hstep.window, flatten_append, filterMap_append,
      Window.page_append]

/-- When the last group was read, rows were still wanted. -/
theorem Reads.last_wanted :
  read = [] ∨ ∃ before group, read = before ++ group ∧ OneGroup scan.runRows group ∧
    (run.window.after (before.flatten.filterMap f).length).closed = false
  := by
  induction h with
  | refl => exact .inl rfl
  | @advance run run' _ group read _ _ hstep _ ih =>
    right
    obtain rfl | ⟨before, last, rfl, hlast, hclosed⟩ := ih
    · refine ⟨[], group, by simp, hstep.oneGroup, ?_⟩
      simpa using (finished_eq_false.mp hstep.unfinished).2
    · refine ⟨group ++ before, last, by rw [append_assoc], hlast, ?_⟩
      rwa [hstep.window, Window.after_after, ← length_append, ← filterMap_append,
        ← flatten_append] at hclosed

end

/-- A run that has read its source to the end has nothing left in it. -/
def EndsEmpty (run : ChunkedRun) : Prop := run.done = true → run.source = []

theorem Reads.endsEmpty (h : Reads scan f run read out run') (hempty : run.EndsEmpty) :
  run'.EndsEmpty
  := by
  induction h with
  | refl => exact hempty
  | advance hstep _ ih => exact ih hstep.ended

/-- How many rounds a run can still take. -/
def bound (run : ChunkedRun) : Nat := run.source.length + (if run.done then 0 else 1)

theorem Advances.bound_lt (h : Advances scan f run group out run') :
  run'.bound < run.bound
  := by
  obtain ⟨hdone, -⟩ := finished_eq_false.mp h.unfinished
  have hlength := congrArg List.length h.source
  rw [length_append] at hlength
  unfold bound
  obtain hgroup | hdone' := h.progress
  · have := length_pos_iff.mpr hgroup
    cases run'.done <;> simp [hdone] <;> omega
  · simp [hdone, hdone']
    omega

/-- A step returns the rows of some rounds, unless the run is at its end. -/
theorem step_reads (db : Database) (e : String) (hbase : ReadsTable scan.table base scan.input)
    (hf : rowStep B S scan.input = some f) {rounds : Nat} (hrounds : run.bound < rounds) :
  ∃ read out run', step B S db base e scan rounds run = some (out, run') ∧
    Reads scan f run read (out.getD []) run' ∧
    (if out.isSome then run'.bound < run.bound else run'.finished = true)
  := by
  induction rounds generalizing run with
  | zero => omega
  | succ rounds ih =>
    rw [step]
    by_cases hfinished : run.finished = true
    · exact ⟨[], none, run, by simp [hfinished], .refl run, by simpa using hfinished⟩
    · obtain ⟨group, out, run', hround, hstep⟩ := round_advances db e hbase hf
        (Bool.not_eq_true _ ▸ hfinished)
      have hlt := hstep.bound_lt
      cases out with
      | nil =>
        obtain ⟨read, out', run'', hmore, hreads, hend⟩ := @ih run' (by omega)
        refine ⟨group ++ read, out', run'', by simp [hfinished, hround, hmore],
          .advance hstep hreads, ?_⟩
        split at hend <;> rename_i hsome
        · rw [if_pos hsome]
          omega
        · rwa [if_neg hsome]
      | cons row out =>
        refine ⟨group, some (row :: out), run', by simp [hfinished, hround], ?_, by simpa using hlt⟩
        have := Reads.advance hstep (.refl run')
        rwa [append_nil, append_nil] at this

/-- All batches are those of rounds up to the end of the run. -/
theorem drain_reads (db : Database) (e : String) (hbase : ReadsTable scan.table base scan.input)
    (hf : rowStep B S scan.input = some f) {rounds : Nat} (hrounds : run.bound < rounds) :
  ∃ read outs run', drain B S db base e scan rounds run = some (outs, run') ∧
    Reads scan f run read outs.flatten run' ∧ run'.finished = true
  := by
  induction rounds generalizing run with
  | zero => omega
  | succ rounds ih =>
    rw [drain]
    obtain ⟨read, out, run', hstep, hreads, hend⟩ :=
      step_reads db e hbase hf hrounds
    cases out with
    | none => exact ⟨read, [], run', by simp [hstep], hreads, by simpa using hend⟩
    | some out =>
      have hlt : run'.bound < run.bound := by simpa using hend
      obtain ⟨read', outs, run'', hmore, hreads', hfinished⟩ := @ih run' (by omega)
      exact ⟨read ++ read', out :: outs, run'', by simp [hstep, hmore], hreads.trans hreads',
        hfinished⟩

/-- At the end of a run nothing more can be seen of what is left in the source. -/
theorem page_of_finished (h : run.finished = true) (hempty : run.EndsEmpty) :
  run.window.page (run.source.flatten.filterMap f) = []
  := by
  obtain hdone | hclosed : run.done = true ∨ run.window.closed = true := by
    simpa [finished, Window.closed, window] using h
  · rw [hempty hdone]
    exact Window.page_nil _
  · exact Window.page_of_closed hclosed _

end ChunkedRun

/-- The plan of a scan returns what the window at the start shows of the chain's rows. -/
theorem ChunkedScan.eval_plan {B : Builtins} {S : Subqueries Q} (scan : ChunkedScan Q)
    (db : Database) (source : List (List RawRow)) :
  scan.plan.eval B S db =
    (scan.input.eval B S db).map (fun rows => (chunkedRun scan source).window.page rows)
  := by
  unfold ChunkedScan.plan chunkedRun ChunkedRun.window Window.page
  cases scan.limit with
  | none => simp
  | some p =>
    rw [LogicalPlan.eval]
    cases scan.input.eval B S db <;> rfl

/-- A run comes to its end, with the rows that the window at the start shows. -/
theorem ChunkedRun.drain_page {B : Builtins} {S : Subqueries Q} {base : Schema}
    (db : Database) (e : String) {scan : ChunkedScan Q} {batches : List (List RawRow)}
    {f : RawRow → Option Row} {rounds : Nat} (hbase : ReadsTable scan.table base scan.input)
    (hf : rowStep B S scan.input = some f) (hrounds : batches.length + 1 < rounds) :
  ∃ read outs run, drain B S db base e scan rounds (chunkedRun scan batches) =
      some (outs, run) ∧ Reads scan f (chunkedRun scan batches) read outs.flatten run ∧
    run.finished = true ∧
    outs.flatten = (chunkedRun scan batches).window.page (batches.flatten.filterMap f)
  := by
  obtain ⟨read, outs, run, hdrain, hreads, hfinished⟩ :
      ∃ read outs run, drain B S db base e scan rounds (chunkedRun scan batches) =
        some (outs, run) ∧ Reads scan f _ read outs.flatten run ∧ _ :=
    drain_reads db e hbase hf hrounds
  refine ⟨read, outs, run, hdrain, hreads, hfinished, ?_⟩
  have hsource : batches = read ++ run.source := hreads.source
  have hempty : run.EndsEmpty := hreads.endsEmpty (fun h => by cases h)
  have hrest : run.window.page (run.source.flatten.filterMap f) = [] :=
    page_of_finished hfinished hempty
  have hall : batches.flatten.filterMap f =
      read.flatten.filterMap f ++ run.source.flatten.filterMap f := by
    rw [hsource, flatten_append, filterMap_append]
  rw [hreads.window] at hrest
  rw [hreads.returned, hall, Window.page_append, hrest, append_nil]

/--
A run returns the rows of its plan in their order, in finitely many batches, and it reads no
further than the limit requires.
-/
theorem chunkedRun_exact {B : Builtins} {S : Subqueries Q} {db : Database} {base : Schema}
    (e : String) {scan : ChunkedScan Q} {batches : List (List RawRow)} {rows : List Row}
    {rounds : Nat} (hbase : ReadsTable scan.table base scan.input)
    (hrows : scan.plan.eval B S (install db scan.table batches.flatten) = some rows)
    (hrounds : batches.length + 1 < rounds) :
  ∃ outs run, ChunkedRun.drain B S db base e scan rounds (chunkedRun scan batches) =
      some (outs, run) ∧
    outs.flatten = rows ∧ run.finished = true ∧
    ∃ read, batches = read ++ run.source ∧ ChunkedRun.StopsInTime B S db scan read
  := by
  rw [scan.eval_plan _ batches, hbase.eval_install, Option.map_map] at hrows
  obtain ⟨f, hf, rfl⟩ := Option.map_eq_some_iff.mp hrows
  obtain ⟨read, outs, run, hdrain, hreads, hfinished, hpage⟩ :=
    ChunkedRun.drain_page db e hbase hf hrounds
  refine ⟨outs, run, hdrain, hpage, hfinished, read, hreads.source, ?_⟩
  intro l o hlimit
  refine hreads.last_wanted.imp_right ?_
  rintro ⟨before, group, hread, hgroup, hopen⟩
  have hstart : (chunkedRun scan batches).window = ⟨o, some l⟩ := by
    simp [ChunkedRun.window, chunkedRun, hlimit]
  rw [hstart] at hopen
  refine ⟨before, group, before.flatten.filterMap f, hread, hgroup, ?_, Window.open_after hopen⟩
  rw [hbase.eval_install, hf, Option.map_some]

/-- `SELECT x FROM t LIMIT 2 OFFSET 1` in groups of two rows. -/
def limitedScan : ChunkedScan Empty where
  input := intScan "t" ["x"]
  limit := some (2, 1)
  table := "t"
  runRows := 2
  single := rfl
  positive := by decide

/-- The second group reaches the limit, so the last batch is not read. -/
theorem chunkedRun_limited :
  ∃ outs run, ChunkedRun.drain noBuiltins noSubqueries (fun _ => tableOf [])
      ⟨[⟨"x", .int64, true⟩]⟩ "e" limitedScan 6 (chunkedRun limitedScan
        [[intRow 1], [intRow 2], [intRow 3, intRow 4], [intRow 5]]) = some (outs, run) ∧
    outs.flatten = [[.int64 2], [.int64 3]] ∧ run.finished = true ∧
    ∃ read, [[intRow 1], [intRow 2], [intRow 3, intRow 4], [intRow 5]] = read ++ run.source ∧
      ChunkedRun.StopsInTime noBuiltins noSubqueries (fun _ => tableOf []) limitedScan read
  := by
  have hbase : ReadsTable limitedScan.table ⟨[⟨"x", .int64, true⟩]⟩ limitedScan.input := ⟨rfl, rfl⟩
  exact chunkedRun_exact "e" hbase rfl (by decide)

end CratonBolt.OutOfCore
