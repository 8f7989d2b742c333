import CratonBolt.Library.FifoMap
import CratonBolt.Plan.Types

/-!
# Kernel caches

Compiled kernels are kept in a cache per process and kernel family, found by a 128-bit fingerprint
of the spec and by the entry point. An entry is served only for a spec with the same printed form.
Behind it stands a directory that processes share, found by the same fingerprint, which keeps the
generated text but not the printed form. So a collision that the first layer detects is served by
the second one, and `neverMixes_iff` says when no lookup gets the kernel of another spec.
-/

namespace CratonBolt.ModuleCache

open List FifoMap Function

/-- The key of a cached kernel within its family. -/
structure SpecKey where
  hi : UInt64
  lo : UInt64
  entry : String
deriving DecidableEq

/-- A loaded module, known by the text that it was loaded from. -/
structure CudaModule where
  ptx : String
deriving DecidableEq

structure CacheEntry where
  ptx : String
  keyMaterial : Option String
  cudaModule : CudaModule

/-! ### The cache of a process -/

structure SpecCache where
  byKey : List (SpecKey × CacheEntry)
  order : List SpecKey
  cap : Nat
  hits : Nat
  misses : Nat

inductive GetOutcome where
  | hit (entry : CacheEntry)
  | collision
  | miss

namespace SpecCache

def new (cap : Nat) : SpecCache := ⟨[], [], cap, 0, 0⟩

variable (c : SpecCache)

def clear : SpecCache := { c with byKey := [], order := [] }

def classify (key : SpecKey) (expectedMaterial : Option String) : GetOutcome :=
  match c.byKey.lookup key with
  | none => .miss
  | some entry =>
    match expectedMaterial, entry.keyMaterial with
    | some want, some stored => if want ≠ stored then .collision else .hit entry
    | _, _ => .hit entry

/-- The counters are `u64` and stay at their maximum. -/
def saturatingSucc (n : Nat) : Nat := min (n + 1) (2 ^ 64 - 1)

def get (key : SpecKey) (expectedMaterial : Option String) :
    Option CacheEntry × SpecCache :=
  match c.classify key expectedMaterial with
  | .hit entry => (some entry, { c with hits := saturatingSucc c.hits })
  | .collision => (none, { c with misses := saturatingSucc c.misses })
  | .miss => (none, { c with misses := saturatingSucc c.misses })

def insert (key : SpecKey) (entry : CacheEntry) : SpecCache :=
  if (c.byKey.lookup key).isSome then c
  else
    { c with
      order := (makeRoom c.cap c.order c.byKey).1 ++ [key]
      byKey := (key, entry) :: (makeRoom c.cap c.order c.byKey).2 }

end SpecCache

/-! ### The shared directory -/

/-- The file of each key: the digest in its header line, and the text below. -/
abbrev DiskCache := String → Option (String × String)

def validKey (key : String) : Bool :=
  !key.isEmpty && !key.toList.all (· == '.') &&
    key.toList.all (fun c => c.isAlphanum || c == '.' || c == '_' || c == '-')

namespace DiskCache

variable (bodyDigest : String → String → String) (d : DiskCache)

def lookup (key : String) : Option String :=
  if validKey key then
    match d key with
    | some (digest, body) => if digest ≠ bodyDigest key body then none else some body
    | none => none
  else none

def store (key ptx : String) : DiskCache :=
  if validKey key then update d key (some (bodyDigest key ptx, ptx)) else d

end DiskCache

/-- A number as 16 hexadecimal digits. -/
def hex (n : UInt64) : String :=
  String.ofList ((List.range 16).reverse.map (fun i => Nat.digitChar (n.toNat / 16 ^ i % 16)))

def hashToKey (hi lo : UInt64) : String := hex hi ++ hex lo

def composeDiskKey (codegenSalt diskPrefix entry : String) (hi lo : UInt64) : String :=
  codegenSalt ++ "-" ++ diskPrefix ++ entry ++ "-" ++ hashToKey hi lo

/-! ### Lookups -/

/-- A kernel that is asked for. A family of kernels has a cache of its own, named by its prefix. -/
structure Request (Spec : Type) where
  diskPrefix : String
  entry : String
  spec : Spec

/-- What a build of the engine and its environment fix. -/
structure Build (Spec : Type) where
  hash128 : String → Spec → UInt64 × UInt64
  keyMaterial : Spec → String
  compile : Request Spec → BoltResult String
  /-- Why the driver refuses a text. -/
  loadError : String → Option BoltError
  codegenSalt : String
  bodyDigest : String → String → String
  cap : String → Nat
  /-- Whether a process uses the shared directory for a family. -/
  usesDisk : Nat → String → Bool

variable {Spec : Type} (b : Build Spec)

namespace Build

def key (r : Request Spec) : SpecKey :=
  ⟨(b.hash128 r.diskPrefix r.spec).1, (b.hash128 r.diskPrefix r.spec).2, r.entry⟩

def diskKey (r : Request Spec) : String :=
  composeDiskKey b.codegenSalt r.diskPrefix r.entry (b.key r).hi (b.key r).lo

def fromPtx (ptx : String) : BoltResult CudaModule :=
  match b.loadError ptx with
  | none => .ok ⟨ptx⟩
  | some error => .error error

/-- The text of a kernel that is not in memory, and the directory afterwards. -/
def ptxFor (disk : Option DiskCache) (r : Request Spec) : BoltResult String × Option DiskCache :=
  match disk with
  | none => (b.compile r, none)
  | some d =>
    match d.lookup b.bodyDigest (b.diskKey r) with
    | some text => (.ok text, some d)
    | none =>
      match b.compile r with
      | .ok text => (.ok text, some (d.store b.bodyDigest (b.diskKey r) text))
      | .error error => (.error error, some d)

def getOrBuildWithDisk (cache : SpecCache) (disk : Option DiskCache) (r : Request Spec) :
    BoltResult CudaModule × SpecCache × Option DiskCache :=
  match cache.get (b.key r) (some (b.keyMaterial r.spec)) with
  | (some cached, cache) => (.ok cached.cudaModule, cache, disk)
  | (none, cache) =>
    match b.ptxFor disk r with
    | (.error error, disk) => (.error error, cache, disk)
    | (.ok ptx, disk) =>
      match b.fromPtx ptx with
      | .error error => (.error error, cache, disk)
      | .ok cudaModule =>
        (.ok cudaModule,
          cache.insert (b.key r) ⟨ptx, some (b.keyMaterial r.spec), cudaModule⟩, disk)

end Build

/-- The caches of all processes and families, and the directory. -/
structure System where
  caches : Nat → String → SpecCache
  disk : DiskCache

namespace System

def start : System := ⟨fun _ family => .new (b.cap family), fun _ => none⟩

/-- A process asks for a kernel. -/
def lookup (st : System) (process : Nat) (r : Request Spec) : BoltResult CudaModule × System :=
  let found := b.getOrBuildWithDisk (st.caches process r.diskPrefix)
    (if b.usesDisk process r.diskPrefix then some st.disk else none) r
  (found.1, ⟨fun p family => if p = process ∧ family = r.diskPrefix then found.2.1
    else st.caches p family, found.2.2.getD st.disk⟩)

/-- A file is evicted, cannot be read, or was never written. -/
def lose (st : System) (key : String) : System :=
  { st with disk := update st.disk key none }

/-- A process empties its caches. -/
def clear (st : System) (process : Nat) : System :=
  { st with caches := fun p family =>
      if p = process then (st.caches p family).clear else st.caches p family }

end System

/-- The states after any sequence of lookups of these kernels. -/
inductive Reached (requests : Set (Request Spec)) : System → Prop
  | start : Reached requests (.start b)
  | lookup {st : System} {r : Request Spec} (process : Nat) (hr : r ∈ requests) :
    Reached requests st → Reached requests (st.lookup b process r).2
  | lose {st : System} (key : String) : Reached requests st → Reached requests (st.lose key)
  | clear {st : System} (process : Nat) :
    Reached requests st → Reached requests (st.clear process)

/-! ### When no kernel is mixed up -/

/-- What stays of a log is its newest part, followed by at most one new key. -/
def OldestGone (before after : List SpecKey) : Prop :=
  ∃ kept added, kept <:+ before ∧ after = kept ++ added ∧ added.length ≤ 1

/-- After any lookups each module is loaded from the text of its own kernel, and the caches are in
step with their logs, within their capacities, and lose only their oldest entries. -/
structure NeverMixes (requests : Set (Request Spec)) : Prop where
  served : ∀ st, Reached b requests st → ∀ process, ∀ r ∈ requests, ∀ cudaModule,
    (st.lookup b process r).1 = .ok cudaModule → b.compile r = .ok cudaModule.ptx
  kept : ∀ st, Reached b requests st → ∀ process family,
    InStep (st.caches process family).order (st.caches process family).byKey ∧
      (st.caches process family).order.length ≤ b.cap family
  oldest : ∀ st, Reached b requests st → ∀ process, ∀ r ∈ requests, ∀ p family,
    OldestGone (st.caches p family).order ((st.lookup b process r).2.caches p family).order

/-- The kernel is compiled to the text, and the text is loaded. -/
structure Builds (r : Request Spec) (ptx : String) : Prop where
  compile : b.compile r = .ok ptx
  loads : b.loadError ptx = none

/-- A process uses the directory for the family of the kernel. -/
def OnDisk (r : Request Spec) : Prop := ∃ process, b.usesDisk process r.diskPrefix = true

/-- A lookup of the second kernel may find what a lookup of the first one left. -/
def SharesSlot (r r' : Request Spec) : Prop :=
  (r.diskPrefix = r'.diskPrefix ∧ b.key r = b.key r' ∧
      b.keyMaterial r.spec = b.keyMaterial r'.spec) ∨
    (b.diskKey r = b.diskKey r' ∧ validKey (b.diskKey r) = true ∧ OnDisk b r ∧ OnDisk b r')

/-- Kernels that share a slot have one text, and the caches in use have room for an entry. -/
structure Unmixed (requests : Set (Request Spec)) : Prop where
  text : ∀ r ∈ requests, ∀ r' ∈ requests, ∀ ptx, Builds b r ptx → SharesSlot b r r' →
    b.compile r' = .ok ptx
  room : ∀ r ∈ requests, ∀ ptx, Builds b r ptx → 0 < b.cap r.diskPrefix

/-- Every entry of a cache was built for a kernel of its family that has the entry's key. -/
structure CacheHolds (requests : Set (Request Spec)) (family : String) (c : SpecCache) : Prop where
  inStep : InStep c.order c.byKey
  cap : c.cap = b.cap family
  length : c.order.length ≤ b.cap family
  built : ∀ x ∈ c.byKey, ∃ r ∈ requests, r.diskPrefix = family ∧ b.key r = x.1 ∧
    x.2.keyMaterial = some (b.keyMaterial r.spec) ∧ Builds b r x.2.cudaModule.ptx

/-- Every file holds the text of a kernel that has its key. -/
def DiskHolds (requests : Set (Request Spec)) (d : DiskCache) : Prop :=
  ∀ key digest body, d key = some (digest, body) →
    validKey key = true ∧ ∃ r ∈ requests, OnDisk b r ∧ b.diskKey r = key ∧ b.compile r = .ok body

variable {b} {requests : Set (Request Spec)} {r : Request Spec} {c : SpecCache} {family : String}

theorem OldestGone.refl (log : List SpecKey) :
  OldestGone log log
  := ⟨log, [], suffix_rfl, (append_nil log).symm, Nat.zero_le 1⟩

/-- A lookup only counts. -/
theorem SpecCache.get_snd (c : SpecCache) (key : SpecKey) (expected : Option String) :
  ∃ hits misses, (c.get key expected).2 = { c with hits, misses }
  := by
  unfold SpecCache.get
  split <;> exact ⟨_, _, rfl⟩

variable {e : CacheEntry} {disk : Option DiskCache}

/-- What a lookup returns has the key and no other printed form. -/
theorem SpecCache.get_fst {key : SpecKey} {material : String}
    (h : (c.get key (some material)).1 = some e) :
  (key, e) ∈ c.byKey ∧ ∀ s, e.keyMaterial = some s → s = material
  := by
  unfold SpecCache.get at h
  split at h
  · next entry hclass =>
    cases h
    unfold SpecCache.classify at hclass
    split at hclass
    · cases hclass
    · next found hfound =>
      obtain ⟨before, after, hentries, -⟩ := lookup_eq_some_iff.mp hfound
      have hmem : (key, found) ∈ c.byKey := by simp [hentries]
      split at hclass
      · next want stored hwant hstored =>
        split at hclass
        · cases hclass
        · next heq =>
          cases hclass
          cases hwant
          refine ⟨hmem, ?_⟩
          intro s hs
          exact Option.some.inj
            (hs.symm.trans (hstored.trans (congrArg some (not_not.mp heq).symm)))
      · next hnone =>
        cases hclass
        exact ⟨hmem, fun s hs => absurd hs (hnone material s rfl)⟩
  · cases h
  · cases h

theorem CacheHolds.get (hc : CacheHolds b requests family c) (key : SpecKey)
    (expected : Option String) :
  CacheHolds b requests family (c.get key expected).2
  := by
  obtain ⟨hits, misses, h⟩ := c.get_snd key expected
  rw [h]
  exact ⟨hc.inStep, hc.cap, hc.length, hc.built⟩

theorem CacheHolds.insert (hc : CacheHolds b requests r.diskPrefix c) (hr : r ∈ requests)
    (hroom : 0 < b.cap r.diskPrefix)
    (hm : e.keyMaterial = some (b.keyMaterial r.spec)) (hb : Builds b r e.cudaModule.ptx) :
  CacheHolds b requests r.diskPrefix (c.insert (b.key r) e) ∧
    OldestGone c.order (c.insert (b.key r) e).order
  := by
  unfold SpecCache.insert
  split
  · exact ⟨hc, OldestGone.refl _⟩
  · next hnew =>
    rw [Bool.not_eq_true, Option.isSome_eq_false_iff, Option.isNone_iff_eq_none,
      lookup_eq_none_iff] at hnew
    obtain ⟨hstep, hsuffix, hsub, hshort⟩ := makeRoom_spec c.cap hc.inStep
    refine ⟨⟨hstep.cons ?_ e, hc.cap, ?_, ?_⟩, _, [b.key r], hsuffix, rfl, Nat.le_refl 1⟩
    · intro hmem
      obtain ⟨x, hx, hkey⟩ := mem_map.mp hmem
      have := hnew x (hsub hx)
      simp [hkey] at this
    · rw [length_append, length_singleton]
      rw [hc.cap] at hshort ⊢
      obtain hnil | hlt := hshort
      · rw [hnil]
        exact hroom
      · exact hlt
    · intro x hx
      obtain rfl | hx := mem_cons.mp hx
      · exact ⟨r, hr, rfl, rfl, hm, hb⟩
      · exact hc.built x (hsub hx)

theorem DiskHolds.store {d : DiskCache} (hd : DiskHolds b requests d) (hr : r ∈ requests)
    (huses : OnDisk b r) {ptx : String} (hptx : b.compile r = .ok ptx) :
  DiskHolds b requests (d.store b.bodyDigest (b.diskKey r) ptx)
  := by
  unfold DiskCache.store
  split
  · next hvalid =>
    intro key digest body hkey
    rw [update_apply] at hkey
    split at hkey
    · next heq =>
      cases hkey
      exact ⟨heq ▸ hvalid, r, hr, huses, heq.symm, hptx⟩
    · exact hd key digest body hkey
  · exact hd

/-- A text that is found or generated, and that loads, is the text of the kernel. -/
theorem ptxFor_spec (hu : Unmixed b requests) (hr : r ∈ requests)
    (hd : ∀ d, disk = some d → DiskHolds b requests d ∧ OnDisk b r) :
  (∀ ptx, (b.ptxFor disk r).1 = .ok ptx → b.loadError ptx = none → b.compile r = .ok ptx) ∧
    ∀ d, (b.ptxFor disk r).2 = some d → DiskHolds b requests d
  := by
  unfold Build.ptxFor
  cases disk with
  | none => exact ⟨fun ptx h _ => h, by rintro d ⟨⟩⟩
  | some d =>
    obtain ⟨hdisk, huses⟩ := hd d rfl
    dsimp only
    split
    · next text hfound =>
      refine ⟨?_, by rintro d ⟨⟩; exact hdisk⟩
      rintro ptx ⟨⟩ hloads
      unfold DiskCache.lookup at hfound
      split at hfound
      · next hvalid =>
        split at hfound
        · next digest body hfile =>
          split at hfound
          · cases hfound
          · cases hfound
            obtain ⟨-, r', hr', huses', hkey, hcompile⟩ := hdisk _ _ _ hfile
            exact hu.text r' hr' r hr text ⟨hcompile, hloads⟩
              (Or.inr ⟨hkey, hkey ▸ hvalid, huses', huses⟩)
        · cases hfound
      · cases hfound
    · split
      · next text hcompile =>
        refine ⟨?_, by rintro d ⟨⟩; exact hdisk.store hr huses hcompile⟩
        rintro ptx ⟨⟩ -
        exact hcompile
      · exact ⟨by rintro ptx ⟨⟩, by rintro d ⟨⟩; exact hdisk⟩

theorem getOrBuildWithDisk_spec (hu : Unmixed b requests) (hr : r ∈ requests)
    (hc : CacheHolds b requests r.diskPrefix c)
    (hd : ∀ d, disk = some d → DiskHolds b requests d ∧ OnDisk b r) :
  (∀ cudaModule, (b.getOrBuildWithDisk c disk r).1 = .ok cudaModule →
      b.compile r = .ok cudaModule.ptx) ∧
    CacheHolds b requests r.diskPrefix (b.getOrBuildWithDisk c disk r).2.1 ∧
    OldestGone c.order (b.getOrBuildWithDisk c disk r).2.1.order ∧
    ∀ d, (b.getOrBuildWithDisk c disk r).2.2 = some d → DiskHolds b requests d
  := by
  obtain ⟨htext, hdisk⟩ := ptxFor_spec hu hr hd
  have hget := hc.get (b.key r) (some (b.keyMaterial r.spec))
  have horder : (c.get (b.key r) (some (b.keyMaterial r.spec))).2.order = c.order := by
    obtain ⟨hits, misses, h⟩ := c.get_snd (b.key r) (some (b.keyMaterial r.spec))
    rw [h]
  unfold Build.getOrBuildWithDisk
  split
  · next cached cache hfound =>
    obtain ⟨hmem, hmaterial⟩ := SpecCache.get_fst (congrArg Prod.fst hfound)
    obtain ⟨r', hr', hfamily, hkey, hm, hb⟩ := hc.built _ hmem
    rw [hfound] at hget horder
    refine ⟨?_, hget, horder ▸ OldestGone.refl _, fun d h => (hd d h).1⟩
    rintro cudaModule ⟨⟩
    exact hu.text r' hr' r hr _ hb (Or.inl ⟨hfamily, hkey, hmaterial _ hm⟩)
  · next cache hfound =>
    rw [hfound] at hget horder
    split
    · next error disk' hptx =>
      rw [hptx] at hdisk
      exact ⟨by rintro m ⟨⟩, hget, horder ▸ OldestGone.refl _, hdisk⟩
    · next ptx disk' hptx =>
      rw [hptx] at hdisk htext
      unfold Build.fromPtx
      cases hload : b.loadError ptx with
      | some error => exact ⟨by rintro m ⟨⟩, hget, horder ▸ OldestGone.refl _, hdisk⟩
      | none =>
        have hb : Builds b r ptx := ⟨htext ptx rfl hload, hload⟩
        obtain ⟨hins, hgone⟩ := hget.insert (e := ⟨ptx, some (b.keyMaterial r.spec), ⟨ptx⟩⟩)
          hr (hu.room r hr ptx hb) rfl hb
        refine ⟨?_, hins, horder ▸ hgone, hdisk⟩
        rintro m ⟨⟩
        exact hb.compile

/-! ### All lookups -/

variable {st : System} {ptx : String}

structure SystemHolds (b : Build Spec) (requests : Set (Request Spec)) (st : System) : Prop where
  caches : ∀ p family, CacheHolds b requests family (st.caches p family)
  disk : DiskHolds b requests st.disk

theorem SystemHolds.lookup (hu : Unmixed b requests) (h : SystemHolds b requests st)
    (hr : r ∈ requests) (process : Nat) :
  (∀ cudaModule, (st.lookup b process r).1 = .ok cudaModule → b.compile r = .ok cudaModule.ptx) ∧
    (∀ p family, OldestGone (st.caches p family).order
      ((st.lookup b process r).2.caches p family).order) ∧
    SystemHolds b requests (st.lookup b process r).2
  := by
  have hd : ∀ d, (if b.usesDisk process r.diskPrefix then some st.disk else none) = some d →
      DiskHolds b requests d ∧ OnDisk b r := by
    intro d hd
    obtain ⟨huses, hd⟩ := Option.ite_none_right_eq_some.mp hd
    exact ⟨Option.some.inj hd ▸ h.disk, process, huses⟩
  obtain ⟨hserved, hcache, hgone, hdisk⟩ :=
    getOrBuildWithDisk_spec hu hr (h.caches process r.diskPrefix) hd
  refine ⟨hserved, ?_, ?_, ?_⟩
  · intro p family
    dsimp only [System.lookup]
    split
    · next heq =>
      obtain ⟨rfl, rfl⟩ := heq
      exact hgone
    · exact OldestGone.refl _
  · intro p family
    dsimp only [System.lookup]
    split
    · next heq => exact heq.2 ▸ hcache
    · exact h.caches p family
  · dsimp only [System.lookup]
    cases hout : (b.getOrBuildWithDisk (st.caches process r.diskPrefix)
        (if b.usesDisk process r.diskPrefix then some st.disk else none) r).2.2 with
    | none => exact h.disk
    | some d => exact hdisk d hout

theorem reached_holds (hu : Unmixed b requests) (h : Reached b requests st) :
  SystemHolds b requests st
  := by
  induction h with
  | start =>
    refine ⟨fun p family => ⟨⟨nodup_nil, Perm.refl _⟩, rfl, Nat.zero_le _, ?_⟩, ?_⟩
    · rintro x ⟨⟩
    · rintro key digest body ⟨⟩
  | lookup process hr _ ih => exact (ih.lookup hu hr process).2.2
  | lose key _ ih =>
    refine ⟨ih.caches, ?_⟩
    intro key' digest body hkey
    dsimp only [System.lose] at hkey
    rw [update_apply] at hkey
    split at hkey
    · cases hkey
    · exact ih.disk key' digest body hkey
  | clear process _ ih =>
    refine ⟨?_, ih.disk⟩
    intro p family
    dsimp only [System.clear]
    split
    · refine ⟨⟨nodup_nil, Perm.refl _⟩, (ih.caches p family).cap, Nat.zero_le _, ?_⟩
      rintro x ⟨⟩
    · exact ih.caches p family

/-- The first lookup builds the kernel and leaves it in the cache and in the directory. -/
theorem lookup_start (hb : Builds b r ptx) (process : Nat) :
  (((System.start b).lookup b process r).2.caches process r.diskPrefix).byKey =
      [(b.key r, ⟨ptx, some (b.keyMaterial r.spec), ⟨ptx⟩⟩)] ∧
    (((System.start b).lookup b process r).2.caches process r.diskPrefix).order = [b.key r] ∧
    (b.usesDisk process r.diskPrefix = true → ((System.start b).lookup b process r).2.disk =
      DiskCache.store b.bodyDigest (fun _ => none) (b.diskKey r) ptx)
  := by
  have hnone : DiskCache.lookup b.bodyDigest (fun _ => none) (b.diskKey r) = none := by
    simp [DiskCache.lookup]
  cases hdisk : b.usesDisk process r.diskPrefix <;>
    simp [System.lookup, System.start, Build.getOrBuildWithDisk, SpecCache.get, SpecCache.classify,
      SpecCache.new, SpecCache.insert, makeRoom, Build.ptxFor, Build.fromPtx, hb.compile, hb.loads,
      hdisk, hnone]

/-- Kernels are never mixed up exactly when those that share a slot have one text, and every cache
that is used has room for an entry. -/
theorem neverMixes_iff (b : Build Spec) (requests : Set (Request Spec)) :
  NeverMixes b requests ↔ Unmixed b requests
  := by
  constructor
  · intro h
    constructor
    · intro r hr r' hr' ptx hb hslot
      rcases hslot with
        ⟨hfamily, hkey, hmaterial⟩ | ⟨hkey, hvalid, ⟨process, huses⟩, process', huses'⟩
      · -- the entry that the first lookup left in memory
        apply h.served _ (.lookup 0 hr .start) 0 r' hr' ⟨ptx⟩
        obtain ⟨hentries, -, -⟩ := lookup_start hb 0
        generalize ((System.start b).lookup b 0 r).2 = st at hentries
        rw [hfamily, hkey, hmaterial] at hentries
        simp [System.lookup, Build.getOrBuildWithDisk, SpecCache.get, SpecCache.classify, hentries]
      · -- the file that the first lookup left, once the memory is empty
        apply h.served _ (.clear process' (.lookup process hr .start)) process' r' hr' ⟨ptx⟩
        have hdisk := (lookup_start hb process).2.2 huses
        generalize ((System.start b).lookup b process r).2 = st at hdisk
        rw [hkey] at hvalid hdisk
        simp [System.lookup, System.clear, Build.getOrBuildWithDisk, SpecCache.get,
          SpecCache.classify, SpecCache.clear, Build.ptxFor, Build.fromPtx, DiskCache.lookup,
          DiskCache.store, huses', hdisk, hvalid, hb.loads]
    · intro r hr ptx hb
      have hlen := (h.kept _ (.lookup 0 hr .start) 0 r.diskPrefix).2
      rw [(lookup_start hb 0).2.1] at hlen
      exact hlen
  · intro hu
    refine ⟨?_, ?_, ?_⟩
    · intro st hst process r hr
      exact ((reached_holds hu hst).lookup hu hr process).1
    · intro st hst process family
      exact ⟨((reached_holds hu hst).caches process family).inStep,
        ((reached_holds hu hst).caches process family).length⟩
    · intro st hst process r hr
      exact ((reached_holds hu hst).lookup hu hr process).2.1

/-- Two kernels with one fingerprint, in a directory that every process uses. -/
def colliding : Build Bool where
  hash128 _ _ := (0, 0)
  keyMaterial spec := if spec then "Max" else "Sum"
  compile r := .ok (if r.spec then "max.s64" else "add.s64")
  loadError _ := none
  codegenSalt := "cg1"
  bodyDigest _ body := body
  cap _ := 64
  usesDisk _ _ := true

/-- The cache notices the collision, and the directory serves the other kernel. -/
theorem colliding_serves_other :
  colliding.compile ⟨"scalar_agg__", "bolt_reduce", true⟩ = .ok "max.s64" ∧
    (((System.start colliding).lookup colliding 0 ⟨"scalar_agg__", "bolt_reduce", false⟩).2.lookup
      colliding 0 ⟨"scalar_agg__", "bolt_reduce", true⟩).1 = .ok ⟨"add.s64"⟩
  := by
  constructor <;> rfl

end CratonBolt.ModuleCache
