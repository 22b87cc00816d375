import SystemStats.EventRuns
import SystemStats.HostActions
import SystemStats.WeakPointers
import Mathlib.Logic.Function.Basic

/-!
# The database instance cache

`LoadInternal` puts an entry with a weak pointer to the instance into the object
cache of that instance, and then registers the five table functions.
`GetDbInstance` looks the entry up through the instance of a context and locks the
pointer. Any number of databases, connections and loaders take their steps in any
order, other extensions use the cache, and what may be evicted is evicted.
-/

namespace SystemStats.InstanceCache
open HostActions WeakPointers EventRuns

def objectType : String := "system_stats_database_instance_cache"

inductive CacheObject
  | instanceEntry (db_weak : ℕ)
  | foreign (type : String) (memory : Option ℕ)
  deriving DecidableEq, Repr

/-- `none` says that the object cannot be evicted. -/
def CacheObject.getEstimatedCacheMemory : CacheObject → Option ℕ
  | .instanceEntry _ => none
  | .foreign _ memory => memory

/-- The object cache of an instance. `Put` may leave an object that is there, and it may
make room; what is taken away, then or by eviction, has an estimated size. -/
structure ObjectCache where
  Cache : Type
  empty : Cache
  get : String → Cache → Option CacheObject
  put : String → CacheObject → Cache → Cache
  evict : String → Cache → Cache
  get_empty : ∀ key, get key empty = none
  get_put : ∀ key o c, o.getEstimatedCacheMemory = none → get key (put key o c) = some o ∨
    (get key c).isSome ∧ get key (put key o c) = get key c
  get_put_of_ne : ∀ key key' o c, key ≠ key' → get key (put key' o c) = get key c ∨
    ∃ o', get key c = some o' ∧ o'.getEstimatedCacheMemory.isSome
  get_evict : ∀ key key' c, get key (evict key' c) = get key c ∨
    ∃ o, get key c = some o ∧ o.getEstimatedCacheMemory.isSome

namespace ObjectCache

def evictable (o : CacheObject) : Bool := o.getEstimatedCacheMemory.isSome

def putNew (key : String) (o : CacheObject) (c : List (String × CacheObject)) :
    List (String × CacheObject) :=
  if (c.lookup key).isSome then c else (key, o) :: c

def evictKey (key : String) (c : List (String × CacheObject)) : List (String × CacheObject) :=
  c.filter (fun e => !(e.1 == key && evictable e.2))

theorem lookup_putNew (key : String) (o : CacheObject) (c : List (String × CacheObject)) :
    (putNew key o c).lookup key = some o ∨
      (c.lookup key).isSome ∧ (putNew key o c).lookup key = c.lookup key := by
  rw [putNew]
  split_ifs with h
  · exact .inr ⟨h, rfl⟩
  · exact .inl List.lookup_cons_self

theorem lookup_putNew_of_ne {key key' : String} (o : CacheObject) (c : List (String × CacheObject))
    (hne : key ≠ key') : (putNew key' o c).lookup key = c.lookup key := by
  rw [putNew]
  split_ifs
  · rfl
  · rw [List.lookup_cons, beq_false_of_ne hne]

theorem lookup_evictKey (key key' : String) (c : List (String × CacheObject)) :
    (evictKey key' c).lookup key = c.lookup key ∨
      ∃ o, c.lookup key = some o ∧ o.getEstimatedCacheMemory.isSome := by
  induction c with
  | nil => exact .inl rfl
  | cons e rest ih =>
    obtain ⟨k, o⟩ := e
    by_cases hkey : key = k
    · subst hkey
      rw [List.lookup_cons_self]
      by_cases hout : (key == key' && evictable o) = true
      · exact .inr ⟨o, rfl, (Bool.and_eq_true .. ▸ hout).2⟩
      · have hkeep := Bool.eq_false_iff.mpr hout
        rw [evictKey, List.filter_cons_of_pos (by rw [hkeep]; rfl), List.lookup_cons_self]
        exact .inl rfl
    · have hcons : ∀ c, List.lookup key ((k, o) :: c) = List.lookup key c := by
        intro c
        rw [List.lookup_cons, beq_false_of_ne hkey]
      rw [hcons]
      by_cases hout : (k == key' && evictable o) = true
      · rw [evictKey, List.filter_cons_of_neg (by simpa using hout)]
        exact ih
      · have hkeep := Bool.eq_false_iff.mpr hout
        rw [evictKey, List.filter_cons_of_pos (by rw [hkeep]; rfl), hcons]
        exact ih

def reference : ObjectCache where
  Cache := List (String × CacheObject)
  empty := []
  get := List.lookup
  put := putNew
  evict := evictKey
  get_empty _ := rfl
  get_put key o c _ := lookup_putNew key o c
  get_put_of_ne _ _ o c hne := .inl (lookup_putNew_of_ne o c hne)
  get_evict := lookup_evictKey

end ObjectCache

inductive TableFunction
  | memory
  | cpu
  | disk
  | network
  | os
  deriving DecidableEq, Repr

def TableFunction.named_parameters : TableFunction → List String
  | .memory => ["unit"]
  | .disk => ["unit"]
  | .cpu => []
  | .network => []
  | .os => []

inductive LoadAction
  | put
  | register (func : TableFunction)
  deriving DecidableEq, Repr

def loadInternal : List LoadAction :=
  [.put, .register .memory, .register .cpu, .register .disk, .register .network, .register .os]

/-- Who holds a shared pointer to an instance. A running query holds its context. -/
inductive Owner
  | database (n : ℕ)
  | connection (n : ℕ)
  | query (n : ℕ)
  | loader (n : ℕ)
  deriving DecidableEq, Repr

structure Loader where
  db : ℕ
  todo : List LoadAction
  deriving DecidableEq, Repr

structure State (O : ObjectCache) where
  pool : Pool Owner
  caches : ℕ → O.Cache
  catalog : ℕ → List TableFunction
  loaders : ℕ → Option Loader

inductive Event
  | create (n : ℕ)
  | connect (n i : ℕ)
  | close (n : ℕ)
  | disconnect (n : ℕ)
  | load (n i : ℕ)
  | advance (n : ℕ)
  | put (i : ℕ) (key : String) (object : CacheObject)
  | evict (i : ℕ) (key : String)
  deriving DecidableEq, Repr

variable {O : ObjectCache}

def State.initial : State O := ⟨.empty, fun _ => O.empty, fun _ => [], fun _ => none⟩

def LoadAction.perform (i : ℕ) (s : State O) : LoadAction → State O
  | .put => { s with
      caches := Function.update s.caches i
        (O.put objectType (.instanceEntry i) (s.caches i)) }
  | .register func => { s with catalog := Function.update s.catalog i (func :: s.catalog i) }

def State.step (s : State O) : Event → Option (State O)
  | .create n => some { s with pool := s.pool.create (.database n) }
  | .connect n i =>
    if s.pool.alive i then some { s with pool := s.pool.share (.connection n) i } else none
  | .close n => some { s with pool := s.pool.drop (.database n) }
  | .disconnect n => some { s with pool := s.pool.drop (.connection n) }
  | .load n i =>
    if s.pool.alive i && (s.loaders n).isNone then
      some { s with
        pool := s.pool.share (.loader n) i
        loaders := Function.update s.loaders n (some ⟨i, loadInternal⟩) }
    else none
  | .advance n =>
    match s.loaders n with
    | none => none
    | some ⟨_, []⟩ =>
      some { s with
        pool := s.pool.drop (.loader n)
        loaders := Function.update s.loaders n none }
    | some ⟨i, a :: todo⟩ =>
      let s := a.perform i s
      some { s with loaders := Function.update s.loaders n (some ⟨i, todo⟩) }
  | .put i key object =>
    if s.pool.alive i && key != objectType then
      some { s with caches := Function.update s.caches i (O.put key object (s.caches i)) }
    else none
  | .evict i key =>
    if s.pool.alive i then
      some { s with caches := Function.update s.caches i (O.evict key (s.caches i)) }
    else none

def notFound : Stop := .internal "DatabaseInstance cache entry not found"

def destroyed : Stop := .internal "DatabaseInstance has been destroyed"

def entryInstance (pool : Pool Owner) (db_weak : ℕ) : Instance :=
  match pool.lock db_weak with
  | none => .error destroyed
  | some i => .ok i

def getDbInstance (s : State O) (i : ℕ) : Instance :=
  match O.get objectType (s.caches i) with
  | some (.instanceEntry db_weak) => entryInstance s.pool db_weak
  | _ => .error notFound

def HasEntry (s : State O) (i : ℕ) : Prop :=
  O.get objectType (s.caches i) = some (.instanceEntry i)

/-- An entry points to the instance whose cache holds it, and it is there before the
first function is registered. -/
structure Sound (s : State O) : Prop where
  pool_valid : s.pool.Valid
  entry : ∀ i, O.get objectType (s.caches i) = none ∨ HasEntry s i
  registered : ∀ i func, func ∈ s.catalog i → HasEntry s i
  loading : ∀ n l, s.loaders n = some l →
    (.loader n, l.db) ∈ s.pool.owners ∧ (l.todo = loadInternal ∨ HasEntry s l.db)

theorem sound_initial : Sound (State.initial : State O) where
  pool_valid := Pool.valid_empty
  entry _ := .inl (O.get_empty objectType)
  registered _ _ h := absurd h List.not_mem_nil
  loading _ _ h := by cases h

variable {s s' : State O}

theorem Sound.withPool (hs : Sound s) {pool : Pool Owner} (hvalid : pool.Valid)
    (hkeep : ∀ n i, (.loader n, i) ∈ s.pool.owners → (.loader n, i) ∈ pool.owners) :
    Sound { s with pool } where
  pool_valid := hvalid
  entry := hs.entry
  registered := hs.registered
  loading n l h := ⟨hkeep n l.db (hs.loading n l h).1, (hs.loading n l h).2⟩

theorem Sound.share (hs : Sound s) (o : Owner) {i : ℕ} (hi : s.pool.alive i = true) :
    Sound { s with pool := s.pool.share o i } :=
  hs.withPool (hs.pool_valid.share o hi) fun _ _ h => List.mem_cons_of_mem _ h

theorem Sound.drop (hs : Sound s) {o : Owner} (ho : ∀ n, o ≠ .loader n) :
    Sound { s with pool := s.pool.drop o } :=
  hs.withPool (hs.pool_valid.drop o) fun n _ h => Pool.mem_drop.mpr ⟨h, (ho n).symm⟩

theorem Sound.withCache (hs : Sound s) {i : ℕ} {c : O.Cache}
    (hc : O.get objectType c = O.get objectType (s.caches i) ∨
      O.get objectType c = some (.instanceEntry i)) :
    Sound { s with caches := Function.update s.caches i c } := by
  have hupdate : ∀ j, O.get objectType (Function.update s.caches i c j) =
      O.get objectType (s.caches j) ∨
      O.get objectType (Function.update s.caches i c j) = some (.instanceEntry j) := by
    intro j
    by_cases hj : j = i
    · subst hj
      rwa [Function.update_self]
    · exact .inl (by rw [Function.update_of_ne hj])
  have hentry : ∀ j, HasEntry s j →
      HasEntry { s with caches := Function.update s.caches i c } j :=
    fun j h => (hupdate j).elim (fun heq => heq.trans h) id
  refine ⟨hs.pool_valid, fun j => ?_, fun j func h => hentry j (hs.registered j func h),
    fun n l h => ⟨(hs.loading n l h).1, (hs.loading n l h).2.imp_right (hentry l.db)⟩⟩
  rcases hupdate j with heq | hnew
  · exact (hs.entry j).imp heq.trans (hentry j)
  · exact .inr hnew

theorem get_put_entry (hs : Sound s) (i : ℕ) :
    O.get objectType (O.put objectType (.instanceEntry i) (s.caches i)) =
      some (.instanceEntry i) := by
  rcases O.get_put objectType (.instanceEntry i) (s.caches i) rfl with h | ⟨hsome, h⟩
  · exact h
  · rcases hs.entry i with hnone | hentry
    · rw [hnone] at hsome
      cases hsome
    · exact h.trans hentry

/-- The entry of an instance has no estimated size, so nothing takes it away. -/
theorem Sound.withRoom (hs : Sound s) {i : ℕ} {c : O.Cache}
    (hc : O.get objectType c = O.get objectType (s.caches i) ∨
      ∃ o, O.get objectType (s.caches i) = some o ∧ o.getEstimatedCacheMemory.isSome) :
    Sound { s with caches := Function.update s.caches i c } := by
  apply hs.withCache
  rcases hc with h | ⟨o, ho, hmemory⟩
  · exact .inl h
  · rcases hs.entry i with hnone | hentry
    · rw [hnone] at ho
      cases ho
    · rw [hentry] at ho
      obtain rfl := Option.some.inj ho
      cases hmemory

inductive Effect (s : State O) : State O → Prop
  | create (n : ℕ) : Effect s { s with pool := s.pool.create (.database n) }
  | connect (n : ℕ) {i : ℕ} (hi : s.pool.alive i = true) :
    Effect s { s with pool := s.pool.share (.connection n) i }
  | drop {o : Owner} (hquery : ∀ q, o ≠ .query q) (hloader : ∀ n, o ≠ .loader n) :
    Effect s { s with pool := s.pool.drop o }
  | load (n : ℕ) {i : ℕ} (hi : s.pool.alive i = true) : Effect s { s with
      pool := s.pool.share (.loader n) i
      loaders := Function.update s.loaders n (some ⟨i, loadInternal⟩) }
  | perform {n i : ℕ} {a : LoadAction} {todo : List LoadAction}
    (hn : s.loaders n = some ⟨i, a :: todo⟩) : Effect s { a.perform i s with
      loaders := Function.update (a.perform i s).loaders n (some ⟨i, todo⟩) }
  | unload (n : ℕ) : Effect s { s with
      pool := s.pool.drop (.loader n)
      loaders := Function.update s.loaders n none }
  | put {key : String} (hkey : key ≠ objectType) (i : ℕ) (object : CacheObject) : Effect s { s with
      caches := Function.update s.caches i (O.put key object (s.caches i)) }
  | evict (i : ℕ) (key : String) : Effect s { s with
      caches := Function.update s.caches i (O.evict key (s.caches i)) }

theorem step_effect {e : Event} (hstep : s.step e = some s') : Effect s s' := by
  cases e with
  | create n =>
    obtain rfl := Option.some.inj hstep
    exact .create n
  | connect n i =>
    rw [State.step] at hstep
    split_ifs at hstep with hi
    obtain rfl := Option.some.inj hstep
    exact .connect n hi
  | close n =>
    obtain rfl := Option.some.inj hstep
    exact .drop nofun nofun
  | disconnect n =>
    obtain rfl := Option.some.inj hstep
    exact .drop nofun nofun
  | load n i =>
    rw [State.step] at hstep
    split_ifs at hstep with hguard
    obtain rfl := Option.some.inj hstep
    rw [Bool.and_eq_true] at hguard
    exact .load n hguard.1
  | advance n =>
    rw [State.step] at hstep
    rcases hloader : s.loaders n with _ | ⟨i, _ | ⟨a, todo⟩⟩
    · rw [hloader] at hstep
      cases hstep
    · rw [hloader] at hstep
      obtain rfl := Option.some.inj hstep
      exact .unload n
    · rw [hloader] at hstep
      obtain rfl := Option.some.inj hstep
      exact .perform hloader
  | put i key object =>
    rw [State.step] at hstep
    split_ifs at hstep with hguard
    obtain rfl := Option.some.inj hstep
    rw [Bool.and_eq_true, bne_iff_ne] at hguard
    exact .put hguard.2 i object
  | evict i key =>
    rw [State.step] at hstep
    split_ifs at hstep
    obtain rfl := Option.some.inj hstep
    exact .evict i key

theorem perform_pool (a : LoadAction) (i : ℕ) (s : State O) : (a.perform i s).pool = s.pool := by
  cases a <;> rfl

theorem perform_loaders (a : LoadAction) (i : ℕ) (s : State O) :
    (a.perform i s).loaders = s.loaders := by
  cases a <;> rfl

theorem Sound.perform (hs : Sound s) {n i : ℕ} {a : LoadAction} {todo : List LoadAction}
    (hloader : s.loaders n = some ⟨i, a :: todo⟩) :
    Sound (a.perform i s) ∧ HasEntry (a.perform i s) i := by
  have hput : a = .put → Sound (a.perform i s) ∧ HasEntry (a.perform i s) i := by
    rintro rfl
    refine ⟨hs.withCache (.inr (get_put_entry hs i)), ?_⟩
    show O.get objectType (Function.update s.caches i _ i) = _
    rw [Function.update_self]
    exact get_put_entry hs i
  cases a with
  | put => exact hput rfl
  | register func =>
    have hentry : HasEntry s i := by
      rcases (hs.loading n _ hloader).2 with h | h
      · cases h
      · exact h
    refine ⟨⟨hs.pool_valid, hs.entry, fun j f hf => ?_, hs.loading⟩, hentry⟩
    have hf' : f ∈ Function.update s.catalog i (func :: s.catalog i) j := hf
    by_cases hj : j = i
    · subst hj
      exact hentry
    · rw [Function.update_of_ne hj] at hf'
      exact hs.registered j f hf'

theorem Sound.effect (hs : Sound s) (h : Effect s s') : Sound s' := by
  cases h with
  | create n => exact hs.withPool (hs.pool_valid.create _) fun _ _ h => List.mem_cons_of_mem _ h
  | connect n hi => exact hs.share _ hi
  | drop hquery hloader => exact hs.drop hloader
  | @load n i hi =>
    have hshared := hs.share (.loader n) hi
    refine ⟨hshared.pool_valid, hs.entry, hs.registered, fun m l hm => ?_⟩
    have hm' : Function.update s.loaders n (some ⟨i, loadInternal⟩) m = some l := hm
    by_cases hmn : m = n
    · rw [hmn, Function.update_self] at hm'
      obtain rfl := Option.some.inj hm'
      exact ⟨by rw [hmn]; exact List.mem_cons_self, .inl rfl⟩
    · rw [Function.update_of_ne hmn] at hm'
      exact hshared.loading m l hm'
  | @perform n i a todo hn =>
    obtain ⟨hsound, hentry⟩ := hs.perform hn
    have howner := (hs.loading n _ hn).1
    refine ⟨hsound.pool_valid, hsound.entry, hsound.registered, fun m l hm => ?_⟩
    have hm' : Function.update (a.perform i s).loaders n (some ⟨i, todo⟩) m = some l := hm
    by_cases hmn : m = n
    · rw [hmn, Function.update_self] at hm'
      obtain rfl := Option.some.inj hm'
      exact ⟨by rw [hmn, perform_pool]; exact howner, .inr hentry⟩
    · rw [Function.update_of_ne hmn] at hm'
      exact hsound.loading m l hm'
  | unload n =>
    refine ⟨hs.pool_valid.drop _, hs.entry, hs.registered, fun m l hm => ?_⟩
    have hm' : Function.update s.loaders n none m = some l := hm
    by_cases hmn : m = n
    · rw [hmn, Function.update_self] at hm'
      cases hm'
    · rw [Function.update_of_ne hmn] at hm'
      have hkept := hs.loading m l hm'
      exact ⟨Pool.mem_drop.mpr ⟨hkept.1, by simpa using hmn⟩, hkept.2⟩
  | put hkey i object => exact hs.withRoom (O.get_put_of_ne _ _ _ _ hkey.symm)
  | evict i key => exact hs.withRoom (O.get_evict _ _ _)

theorem Effect.query_owner (h : Effect s s') {q i : ℕ} (hq : (.query q, i) ∈ s.pool.owners) :
    (.query q, i) ∈ s'.pool.owners := by
  cases h with
  | create n => exact List.mem_cons_of_mem _ hq
  | connect n hi => exact List.mem_cons_of_mem _ hq
  | drop hquery hloader => exact Pool.mem_drop.mpr ⟨hq, (hquery q).symm⟩
  | load n hi => exact List.mem_cons_of_mem _ hq
  | @perform n i a todo hn => exact (perform_pool a i s).symm ▸ hq
  | unload n => exact Pool.mem_drop.mpr ⟨hq, nofun⟩
  | put hkey i object => exact hq
  | evict i key => exact hq

theorem Effect.catalog_subset (h : Effect s s') (i : ℕ) : s.catalog i ⊆ s'.catalog i := by
  cases h with
  | @perform n j a todo hn =>
    cases a with
    | put => exact List.Subset.refl _
    | register func =>
      show s.catalog i ⊆ Function.update s.catalog j (func :: s.catalog j) i
      by_cases hj : i = j
      · rw [hj, Function.update_self]
        exact List.subset_cons_self func _
      · rw [Function.update_of_ne hj]
        exact List.Subset.refl _
  | create n => exact List.Subset.refl _
  | connect n hi => exact List.Subset.refl _
  | drop hquery hloader => exact List.Subset.refl _
  | load n hi => exact List.Subset.refl _
  | unload n => exact List.Subset.refl _
  | put hkey i object => exact List.Subset.refl _
  | evict i key => exact List.Subset.refl _

theorem Effect.expired (h : Effect s s') {i : ℕ} (hi : s.pool.Expired i) : s'.pool.Expired i := by
  cases h with
  | create n => exact hi.create _
  | connect n hj => exact hi.share _ hj
  | drop hquery hloader => exact hi.drop _
  | load n hj => exact hi.share _ hj
  | @perform n j a todo hn => exact (perform_pool a j s).symm ▸ hi
  | unload n => exact hi.drop _
  | put hkey i object => exact hi
  | evict i key => exact hi

def Progress (s : State O) : Prop := ∀ n l, s.loaders n = some l →
  ∀ func, .register func ∈ loadInternal → .register func ∈ l.todo ∨ func ∈ s.catalog l.db

theorem Effect.progress (h : Effect s s') (hs : Progress s) : Progress s' := by
  have hkept : ∀ n l, s.loaders n = some l → ∀ func, .register func ∈ loadInternal →
      .register func ∈ l.todo ∨ func ∈ s'.catalog l.db :=
    fun n l hl func hfunc => (hs n l hl func hfunc).imp_right fun hdone => h.catalog_subset _ hdone
  intro n l hl
  cases h with
  | @load m i hi =>
    have hl' : Function.update s.loaders m (some ⟨i, loadInternal⟩) n = some l := hl
    by_cases hm : n = m
    · rw [hm, Function.update_self] at hl'
      obtain rfl := Option.some.inj hl'
      exact fun func hfunc => .inl hfunc
    · rw [Function.update_of_ne hm] at hl'
      exact hkept n l hl'
  | @perform m i a todo hn =>
    have hl' : Function.update (a.perform i s).loaders m (some ⟨i, todo⟩) n = some l := hl
    rw [perform_loaders] at hl'
    by_cases hm : n = m
    · rw [hm, Function.update_self] at hl'
      obtain rfl := Option.some.inj hl'
      intro func hfunc
      rcases hkept m _ hn func hfunc with htodo | hdone
      · rcases List.mem_cons.mp htodo with rfl | htodo
        · refine .inr ?_
          show func ∈ Function.update s.catalog i (func :: s.catalog i) i
          rw [Function.update_self]
          exact List.mem_cons_self
        · exact .inl htodo
      · exact .inr hdone
    · rw [Function.update_of_ne hm] at hl'
      exact hkept n l hl'
  | unload m =>
    have hl' : Function.update s.loaders m none n = some l := hl
    by_cases hm : n = m
    · rw [hm, Function.update_self] at hl'
      cases hl'
    · rw [Function.update_of_ne hm] at hl'
      exact hkept n l hl'
  | create n => exact hkept _ l hl
  | connect n hi => exact hkept _ l hl
  | drop hquery hloader => exact hkept n l hl
  | put hkey i object => exact hkept n l hl
  | evict i key => exact hkept n l hl

theorem Sound.getDbInstance_eq (hs : Sound s) {i : ℕ} (hi : s.pool.alive i = true) :
    getDbInstance s i = .ok i ∧ HasEntry s i ∨
      getDbInstance s i = .error notFound ∧ s.catalog i = [] := by
  have hlock : s.pool.lock i = some i := if_pos hi
  rcases hs.entry i with hnone | hentry
  · refine .inr ⟨by rw [getDbInstance, hnone], List.eq_nil_iff_forall_not_mem.mpr fun f hf => ?_⟩
    have h := hs.registered i f hf
    rw [HasEntry, hnone] at h
    cases h
  · have hentry' := hentry
    rw [HasEntry] at hentry'
    exact .inl ⟨by simp only [getDbInstance, hentry', entryInstance, hlock], hentry⟩

theorem Sound.registered_instance (hs : Sound s) {i : ℕ} {func : TableFunction}
    (hi : s.pool.alive i = true) (hfunc : func ∈ s.catalog i) : getDbInstance s i = .ok i := by
  rcases hs.getDbInstance_eq hi with ⟨hok, -⟩ | ⟨-, hempty⟩
  · exact hok
  · exact absurd hempty (List.ne_nil_of_mem hfunc)

theorem run_sound {es : List Event} (hrun : run State.step es (.initial : State O) = some s) :
    Sound s :=
  run_invariant sound_initial (fun _ _ _ hs hstep => hs.effect (step_effect hstep)) hrun

/-- In every state of every run, a context of a live instance in which a function is
registered gets that instance, and no context is told that its instance has been
destroyed. An entry that outlives its instance reports that from then on. -/
theorem getDbInstance_reachable {es : List Event}
    (hrun : run State.step es (.initial : State O) = some s) :
    (∀ i func, s.pool.alive i = true → func ∈ s.catalog i → getDbInstance s i = .ok i) ∧
    (∀ i, s.pool.alive i = true → getDbInstance s i ≠ .error destroyed) ∧
    (∀ i es' s', s.pool.Expired i → run State.step es' s = some s' →
      entryInstance s'.pool i = .error destroyed) := by
  have hsound := run_sound hrun
  refine ⟨fun i func hi hfunc => hsound.registered_instance hi hfunc, fun i hi h => ?_,
    fun i es' s' hi hrun' => ?_⟩
  · rcases hsound.getDbInstance_eq hi with ⟨hok, -⟩ | ⟨herror, -⟩
    · rw [hok] at h
      cases h
    · rw [herror] at h
      have hmessage := Stop.internal.inj (Except.error.inj h)
      simp at hmessage
  · have hexpired : s'.pool.Expired i :=
      run_invariant (P := fun s => s.pool.Expired i) hi
        (fun _ _ _ h hstep => (step_effect hstep).expired h) hrun'
    have hlock : s'.pool.lock i = none := if_neg (Bool.eq_false_iff.mp hexpired.2)
    simp only [entryInstance, hlock]

def loading : List Event :=
  [.create 0, .connect 0 0, .load 0 0, .advance 0, .advance 0, .advance 0, .advance 0, .advance 0,
    .advance 0]

def loaded : State .reference := (run State.step loading .initial).getD .initial

def closed : State .reference :=
  (run State.step (loading ++ [.advance 0, .close 0, .disconnect 0]) .initial).getD .initial

theorem getDbInstance_reachable_loaded :
    getDbInstance loaded 0 = .ok 0 ∧ getDbInstance loaded 0 ≠ .error destroyed ∧
      entryInstance closed.pool 0 = .error destroyed := by
  have hloaded : run State.step loading (.initial : State .reference) = some loaded := rfl
  have hclosed : run State.step (loading ++ [.advance 0, .close 0, .disconnect 0])
      (.initial : State .reference) = some closed := rfl
  have hexpired : closed.pool.Expired 0 := ⟨by decide, rfl⟩
  obtain ⟨hfound, hkept, -⟩ := getDbInstance_reachable hloaded
  exact ⟨hfound 0 .memory rfl (by decide), hkept 0 rfl,
    (getDbInstance_reachable hclosed).2.2 0 [] closed hexpired rfl⟩

/-- A loader that has nothing left to do has registered every function, and each of them
finds the instance, whatever happened in between. -/
theorem load_complete {es : List Event}
    (hrun : run State.step es (.initial : State O) = some s) {n i : ℕ}
    (hloader : s.loaders n = some ⟨i, []⟩) :
    (∀ func, func ∈ s.catalog i) ∧ getDbInstance s i = .ok i := by
  have hprogress : Progress s :=
    run_invariant (P := Progress) (fun _ _ h => by cases h)
      (fun _ _ _ h hstep => (step_effect hstep).progress h) hrun
  have hall : ∀ func, func ∈ s.catalog i := by
    intro func
    have hlisted : .register func ∈ loadInternal := by cases func <;> decide
    rcases hprogress n _ hloader func hlisted with h | h
    · cases h
    · exact h
  refine ⟨hall, ?_⟩
  have hsound := run_sound hrun
  have halive := Pool.alive_of_mem (hsound.loading n _ hloader).1
  exact hsound.registered_instance halive (hall .memory)

theorem load_complete_loaded :
    (∀ func, func ∈ loaded.catalog 0) ∧ getDbInstance loaded 0 = .ok 0 := by
  have hrun : run State.step loading (.initial : State .reference) = some loaded := rfl
  exact load_complete hrun (n := 0) rfl

end SystemStats.InstanceCache
