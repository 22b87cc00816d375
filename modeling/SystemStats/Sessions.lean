import SystemStats.TableFunctions

/-!
# Queries on shared databases

Any number of queries run on the instances of a process while databases come and
go, the object caches change and the host gives other replies from one call to
the next. A query that has started is called again and again; it ends when it is
finished or when a call throws. A signed overflow and a loop that does not end
are not exceptions, and no step follows them.
-/

namespace SystemStats.Sessions
open TextLines ChunkedScan DiskStats HostActions HeldResources HeldResources.Action EventRuns
  WeakPointers InstanceCache TableFunctions

structure Query where
  db : ℕ
  data : ScanData
  delivered : List Row
  done : Bool
  deriving DecidableEq

structure State (P : Platform) (O : ObjectCache) where
  instances : InstanceCache.State O
  host : P.Host
  store : Store Resource
  queries : ℕ → Option Query

inductive Event (P : Platform)
  | instances (e : InstanceCache.Event)
  | host (host : P.Host)
  | start (q i : ℕ) (func : TableFunction) (unit : Option Text)
  | fetch (q : ℕ)
  | finish (q : ℕ)

def isException : Stop → Bool
  | .internal _ => true
  | .notImplemented _ => true
  | .cast => true
  | .invalidUnicode => true
  | .overflow => false
  | .diverges => false

/-- The value of an action, `none` when it throws. -/
def attempt {α : Type} (x : Action α) (store : Store Resource) :
    Option (Option α × Store Resource) :=
  (exec x store).bind (fun r =>
    match r.1 with
    | .ok a => some (some a, r.2)
    | .error e => if isException e then some (none, r.2) else none)

variable (D : DuckDB) (capacity : ℕ) {P : Platform} {O : ObjectCache}

def State.initial (host : P.Host) : State P O := ⟨.initial, host, .empty, fun _ => none⟩

def State.enter (s : State P O) (q i : ℕ) (data : ScanData) : State P O :=
  { s with
    instances := { s.instances with pool := s.instances.pool.share (.query q) i }
    queries := Function.update s.queries q (some ⟨i, data, [], false⟩) }

def State.finish (s : State P O) (q : ℕ) : State P O :=
  { s with
    instances := { s.instances with pool := s.instances.pool.drop (.query q) }
    queries := Function.update s.queries q none }

def Query.receive (query : Query) (data : ScanData) (output : Chunk Cell) : Query :=
  { query with
    data
    delivered := query.delivered ++ output.rows query.data.bound.width
    done := output.cardinality == 0 }

def State.begin (s : State P O) (q i : ℕ) (bound : Bound) : Option (State P O) :=
  (attempt (initFunction P s.host (getDbInstance s.instances i) bound) s.store).map
    fun (data, store) =>
      match data with
      | none => { s with store }
      | some data => { s with store }.enter q i data

def State.fetch (s : State P O) (q : ℕ) (query : Query) : Option (State P O) :=
  (attempt (callFunction D P capacity s.host (getDbInstance s.instances query.db) query.data)
      s.store).map
    fun (call, store) =>
      match call with
      | none => { s with store }.finish q
      | some (data, output) => { s with
          store
          queries := Function.update s.queries q (some (query.receive data output)) }

def State.step (s : State P O) : Event P → Option (State P O)
  | .instances e => (s.instances.step e).map (fun instances => { s with instances })
  | .host host => some { s with host }
  | .start q i func unit =>
    if (s.queries q).isNone && s.instances.pool.alive i && (s.instances.catalog i).contains func &&
        (unit.isNone || func.named_parameters.contains "unit") then
      match bindFunction D unit func with
      | .error _ => some s
      | .ok bound => s.begin q i bound
    else none
  | .fetch q =>
    match s.queries q with
    | none => none
    | some query => s.fetch D capacity q query
  | .finish q => (s.queries q).map (fun _ => s.finish q)

theorem step_fetch {D : DuckDB} {capacity : ℕ} {s : State P O} {q : ℕ} {query : Query}
    (hq : s.queries q = some query) :
    s.step D capacity (.fetch q) = s.fetch D capacity q query := by
  rw [State.step, hq]

theorem step_start {D : DuckDB} {capacity : ℕ} {s : State P O} {q i : ℕ} {func : TableFunction}
    {unit : Option Text} (hnew : s.queries q = none) (hi : s.instances.pool.alive i = true)
    (hfunc : func ∈ s.instances.catalog i)
    (hunit : unit = none ∨ "unit" ∈ func.named_parameters) :
    s.step D capacity (.start q i func unit) =
      match bindFunction D unit func with
      | .error _ => some s
      | .ok bound => s.begin q i bound := by
  have hguard : ((s.queries q).isNone && s.instances.pool.alive i &&
      (s.instances.catalog i).contains func &&
      (unit.isNone || func.named_parameters.contains "unit")) = true := by
    simpa [hnew, hi, hfunc] using hunit
  rw [State.step, if_pos hguard]

def Event.starts (q : ℕ) : Event P → Prop
  | .start q' _ _ _ => q' = q
  | _ => False

def Event.calls (q : ℕ) (e : Event P) : Prop := e.starts q ∨ e = .fetch q

/-- These rows are the table at one moment, when the query was started or called. -/
def ReadAt (O : ObjectCache) (host : P.Host) (q : ℕ) (bound : Bound) (rows : List Row)
    (es : List (Event P)) : Prop :=
  Since (State.step D capacity) (.initial host : State P O)
    (fun s e => e.calls q ∧ contents P s.host bound = .ok rows) (Event.starts q) es

structure Query.Sound (host : P.Host) (es : List (Event P)) (s : State P O) (q : ℕ)
    (query : Query) : Prop where
  owner : (.query q, query.db) ∈ s.instances.pool.owners
  registered : s.instances.catalog query.db ≠ []
  valid : query.data.Valid
  rows : query.data.remaining = none ∧ query.delivered = [] ∨
    ∃ rest, query.data.remaining = some rest ∧
      ReadAt D capacity O host q query.data.bound (query.delivered ++ rest) es
  drained : query.done = true → query.data.remaining = some []

structure Sound (host : P.Host) (es : List (Event P)) (s : State P O) : Prop where
  instances : InstanceCache.Sound s.instances
  held : s.store.held = []
  queries : ∀ q query, s.queries q = some query → query.Sound D capacity host es s q

variable {D capacity} {host : P.Host} {es : List (Event P)} {s s' : State P O}

theorem sound_initial : Sound D capacity host [] (.initial host : State P O) where
  instances := InstanceCache.sound_initial
  held := rfl
  queries _ _ h := by cases h

theorem Query.Sound.keep {q : ℕ} {query : Query} (h : query.Sound D capacity host es s q)
    {e : Event P} (he : ¬ e.starts q)
    (howner : (.query q, query.db) ∈ s'.instances.pool.owners)
    (hcatalog : s.instances.catalog query.db ⊆ s'.instances.catalog query.db) :
    query.Sound D capacity host (es ++ [e]) s' q where
  owner := howner
  registered hempty := h.registered (List.eq_nil_of_subset_nil (hempty ▸ hcatalog))
  valid := h.valid
  rows := h.rows.imp_right fun ⟨rest, hrest, hread⟩ => ⟨rest, hrest, hread.concat he⟩
  drained := h.drained

theorem Sound.getDbInstance_eq (hs : Sound D capacity host es s) {q : ℕ} {query : Query}
    (hq : s.queries q = some query) : getDbInstance s.instances query.db = .ok query.db := by
  have hquery := hs.queries q query hq
  obtain ⟨func, hfunc⟩ := List.exists_mem_of_ne_nil _ hquery.registered
  exact hs.instances.registered_instance (Pool.alive_of_mem hquery.owner) hfunc

theorem attempt_ok {α : Type} {x : Action α} {a : α} (h : Denotes [] x (.ok a))
    (store : Store Resource) :
    ∃ next, attempt x store = some (some a, ⟨next, store.held⟩) := by
  obtain ⟨next, hrun⟩ := h.exec_eq (List.nil_subset store.held)
  exact ⟨next, by rw [attempt, hrun]; rfl⟩

theorem attempt_error {α : Type} {x : Action α} {e : Stop} (h : Denotes [] x (.error e))
    (store : Store Resource) :
    ∃ next, attempt x store =
      if isException e then some (none, ⟨next, store.held⟩) else none := by
  obtain ⟨next, hrun⟩ := h.exec_eq (List.nil_subset store.held)
  exact ⟨next, by rw [attempt, hrun]; rfl⟩

variable {q : ℕ}

theorem begin_spec (hs : Sound D capacity host es s) {i : ℕ}
    (hi : getDbInstance s.instances i = .ok i) (q : ℕ) (bound : Bound) :
    (∃ data next, Starts P s.host bound data ∧
      s.begin q i bound = some ({ s with store := ⟨next, []⟩ }.enter q i data)) ∨
    ∃ e next, contents P s.host bound = .error e ∧
      s.begin q i bound = if isException e then some { s with store := ⟨next, []⟩ } else none := by
  rw [State.begin, hi]
  rcases initFunction_spec P s.host i bound with ⟨data, hdata, hinit⟩ | ⟨e, he, hinit⟩
  · obtain ⟨next, hcall⟩ := attempt_ok hinit s.store
    rw [hcall, hs.held]
    exact .inl ⟨data, next, hdata, rfl⟩
  · obtain ⟨next, hcall⟩ := attempt_error hinit s.store
    refine .inr ⟨e, next, he, ?_⟩
    rw [hcall, hs.held]
    cases isException e <;> rfl

theorem fetch_spec (hcap : 1 ≤ capacity) (hs : Sound D capacity host es s) {query : Query}
    (hq : s.queries q = some query) :
    (∃ rows data output next, query.data.Continues P s.host rows ∧
      Delivers rows query.data data output ∧
      s.fetch D capacity q query = some { s with
        store := ⟨next, []⟩
        queries := Function.update s.queries q (some (query.receive data output)) }) ∨
    ∃ e next, CallEnds D P s.host query.data (.error e) ∧
      s.fetch D capacity q query =
        if isException e then some ({ s with store := ⟨next, []⟩ }.finish q) else none := by
  rw [State.fetch, hs.getDbInstance_eq hq]
  obtain ⟨r, hends, hcall⟩ :=
    callFunction_spec D P hcap s.host query.db (hs.queries q query hq).valid
  cases r with
  | ok call =>
    obtain ⟨next, hrun⟩ := attempt_ok hcall s.store
    cases hends with
    | delivers hrows hdelivers =>
      rw [hrun, hs.held]
      exact .inl ⟨_, _, _, next, hrows, hdelivers, rfl⟩
  | error e =>
    obtain ⟨next, hrun⟩ := attempt_error hcall s.store
    refine .inr ⟨e, next, hends, ?_⟩
    rw [hrun, hs.held]
    cases isException e <;> rfl

/-- What a step does. A query that is refused leaves only its number of handles. -/
inductive Effect (D : DuckDB) (s : State P O) : Event P → State P O → Prop
  | instances {e : InstanceCache.Event} {instances : InstanceCache.State O}
    (h : s.instances.step e = some instances) : Effect D s (.instances e) { s with instances }
  | host (host : P.Host) : Effect D s (.host host) { s with host }
  | refused {q i : ℕ} {func : TableFunction} {unit : Option Text} (hnew : s.queries q = none)
    (next : ℕ) : Effect D s (.start q i func unit) { s with store := ⟨next, []⟩ }
  | entered {q i : ℕ} {func : TableFunction} {unit : Option Text} {bound : Bound} {data : ScanData}
    (hnew : s.queries q = none) (hi : s.instances.pool.alive i = true)
    (hfunc : func ∈ s.instances.catalog i) (hdata : Starts P s.host bound data) (next : ℕ) :
    Effect D s (.start q i func unit) ({ s with store := ⟨next, []⟩ }.enter q i data)
  | received {q : ℕ} {query : Query} {rows : List Row} {data : ScanData} {output : Chunk Cell}
    (hq : s.queries q = some query) (hrows : query.data.Continues P s.host rows)
    (hdelivers : Delivers rows query.data data output) (next : ℕ) :
    Effect D s (.fetch q) { s with
      store := ⟨next, []⟩
      queries := Function.update s.queries q (some (query.receive data output)) }
  | thrown {q : ℕ} {query : Query} (hq : s.queries q = some query)
    (hinvalid : ∀ rest, query.data.remaining = some rest →
      ∃ row ∈ rest, Row.valid D row = false) (next : ℕ) :
    Effect D s (.fetch q) ({ s with store := ⟨next, []⟩ }.finish q)
  | finished (q : ℕ) : Effect D s (.finish q) (s.finish q)

theorem Sound.effect (hcap : 1 ≤ capacity) (hs : Sound D capacity host es s) {e : Event P}
    (hstep : s.step D capacity e = some s') : Effect D s e s' := by
  cases e with
  | instances e =>
    obtain ⟨instances, hinstances, rfl⟩ := Option.map_eq_some_iff.mp hstep
    exact .instances hinstances
  | host host =>
    obtain rfl := Option.some.inj hstep
    exact .host host
  | start q i func unit =>
    rw [State.step] at hstep
    split_ifs at hstep with hguard
    simp only [Bool.and_eq_true, Option.isNone_iff_eq_none, List.contains_iff_mem] at hguard
    obtain ⟨⟨⟨hnew, hi⟩, hfunc⟩, -⟩ := hguard
    cases hbind : bindFunction D unit func with
    | error message =>
      rw [hbind] at hstep
      obtain rfl := Option.some.inj hstep
      have hrefused : Effect D s (.start q i func unit) { s with store := ⟨s.store.next, []⟩ } :=
        .refused hnew s.store.next
      rwa [← hs.held] at hrefused
    | ok bound =>
      rw [hbind] at hstep
      rcases begin_spec hs (hs.instances.registered_instance hi hfunc) q bound with
        ⟨data, next, hdata, hcall⟩ | ⟨e, next, -, hcall⟩
      · obtain rfl := Option.some.inj (hcall.symm.trans hstep)
        exact .entered hnew hi hfunc hdata next
      · replace hstep := hcall.symm.trans hstep
        split_ifs at hstep
        obtain rfl := Option.some.inj hstep
        exact .refused hnew next
  | fetch q =>
    rcases hq : s.queries q with _ | query
    · rw [State.step, hq] at hstep
      cases hstep
    · rw [step_fetch hq] at hstep
      rcases fetch_spec hcap hs hq with
        ⟨rows, data, output, next, hrows, hdelivers, hcall⟩ | ⟨e, next, hends, hcall⟩
      · rw [hcall] at hstep
        obtain rfl := Option.some.inj hstep
        exact .received hq hrows hdelivers next
      · rw [hcall] at hstep
        split_ifs at hstep
        obtain rfl := Option.some.inj hstep
        exact .thrown hq (fun _ => hends.invalid_row) next
  | finish q =>
    obtain ⟨query, -, rfl⟩ := Option.map_eq_some_iff.mp hstep
    exact .finished q

theorem Effect.other {e : Event P} (h : Effect D s e s') {q : ℕ} {query : Query}
    (hq : s.queries q = some query) (hfetch : e ≠ .fetch q) (hfinish : e ≠ .finish q) :
    s'.queries q = some query := by
  cases h with
  | instances h => exact hq
  | host host => exact hq
  | refused hnew next => exact hq
  | @entered q' i func unit bound data hnew hi hfunc hdata next =>
    have hne : q ≠ q' := by
      rintro rfl
      rw [hq] at hnew
      cases hnew
    exact (Function.update_of_ne hne _ _).trans hq
  | @received q' query' rows data output hq' hrows hdelivers next =>
    have hne : q ≠ q' := fun h => hfetch (by rw [h])
    exact (Function.update_of_ne hne _ _).trans hq
  | @thrown q' query' hq' hinvalid next =>
    have hne : q ≠ q' := fun h => hfetch (by rw [h])
    exact (Function.update_of_ne hne _ _).trans hq
  | finished q' =>
    have hne : q ≠ q' := fun h => hfinish (by rw [h])
    exact (Function.update_of_ne hne _ _).trans hq

theorem Sound.withStore (hs : Sound D capacity host es s) {e : Event P}
    (he : ∀ q query, s.queries q = some query → ¬ e.starts q) (next : ℕ) :
    Sound D capacity host (es ++ [e]) { s with store := ⟨next, []⟩ } where
  instances := hs.instances
  held := rfl
  queries q query hq := by
    have hquery := hs.queries q query hq
    exact hquery.keep (he q query hq) hquery.owner (List.Subset.refl _)

theorem Sound.finish (hs : Sound D capacity host es s) {e : Event P}
    (he : ∀ q', ¬ e.starts q') (q : ℕ) {store : Store Resource} (hstore : store.held = []) :
    Sound D capacity host (es ++ [e]) ({ s with store }.finish q) where
  instances := hs.instances.drop fun _ h => by cases h
  held := hstore
  queries q' query hq' := by
    have hrest : Function.update s.queries q none q' = some query := hq'
    have hne : q' ≠ q := by
      rintro rfl
      rw [Function.update_self] at hrest
      cases hrest
    rw [Function.update_of_ne hne] at hrest
    have hquery := hs.queries q' query hrest
    refine hquery.keep (he q') (Pool.mem_drop.mpr ⟨hquery.owner, ?_⟩) (List.Subset.refl _)
    simpa using hne

theorem Sound.enter (hs : Sound D capacity host es s) {i : ℕ} {bound : Bound} {data : ScanData}
    (hrun : run (State.step D capacity) es (.initial host) = some s)
    (hi : s.instances.pool.alive i = true) {func : TableFunction} {unit : Option Text}
    (hfunc : func ∈ s.instances.catalog i) (hdata : Starts P s.host bound data) (next : ℕ) :
    Sound D capacity host (es ++ [.start q i func unit])
      ({ s with store := ⟨next, []⟩ }.enter q i data) where
  instances := hs.instances.share _ hi
  held := rfl
  queries q' query hq' := by
    have hrest : Function.update s.queries q (some ⟨i, data, [], false⟩) q' = some query := hq'
    by_cases hne : q' = q
    · subst hne
      rw [Function.update_self] at hrest
      obtain rfl := Option.some.inj hrest
      refine ⟨List.mem_cons_self, List.ne_nil_of_mem hfunc, hdata.valid, ?_, fun h => by cases h⟩
      refine hdata.rows.imp (fun hnone => ⟨hnone, rfl⟩) fun ⟨rows, hrows, hcontents⟩ => ?_
      refine ⟨rows, hrows, Since.last hrun ⟨.inl rfl, ?_⟩⟩
      rw [hdata.bound_eq]
      exact hcontents
    · rw [Function.update_of_ne hne] at hrest
      have hquery := hs.queries q' query hrest
      exact hquery.keep (Ne.symm hne) (List.mem_cons_of_mem _ hquery.owner) (List.Subset.refl _)

theorem Query.Sound.receive {query : Query} (hquery : query.Sound D capacity host es s q)
    (hrun : run (State.step D capacity) es (.initial host) = some s) {rows : List Row}
    {data : ScanData} {output : Chunk Cell} (hrows : query.data.Continues P s.host rows)
    (hdelivers : Delivers rows query.data data output)
    (hinstances : s'.instances = s.instances) :
    (query.receive data output).Sound D capacity host (es ++ [.fetch q]) s' q := by
  obtain ⟨rest, hrest, hsplit⟩ := hdelivers.split
  have hread : ReadAt D capacity O host q query.data.bound (query.delivered ++ rows)
      (es ++ [.fetch q]) := by
    rcases hrows with hsome | ⟨hnone, hcontents⟩
    · rcases hquery.rows with ⟨hnone, -⟩ | ⟨rest', hrest', hread⟩
      · rw [hnone] at hsome
        cases hsome
      · rw [hsome] at hrest'
        obtain rfl := Option.some.inj hrest'
        exact hread.concat id
    · rcases hquery.rows with ⟨-, hempty⟩ | ⟨rest', hrest', -⟩
      · rw [hempty]
        exact Since.last hrun ⟨.inr rfl, hcontents⟩
      · rw [hnone] at hrest'
        cases hrest'
  refine ⟨hinstances ▸ hquery.owner, hinstances ▸ hquery.registered, hdelivers.valid,
    .inr ⟨rest, hrest, ?_⟩, fun hdone => ?_⟩
  · rw [hsplit, ← List.append_assoc] at hread
    show ReadAt D capacity O host q data.bound _ _
    rw [hdelivers.bound]
    exact hread
  · have hempty : rows = [] := hdelivers.empty (beq_iff_eq.mp hdone)
    rw [hempty] at hsplit
    rw [(List.append_eq_nil_iff.mp hsplit.symm).2] at hrest
    exact hrest

theorem Sound.step (hcap : 1 ≤ capacity) (hs : Sound D capacity host es s)
    (hrun : run (State.step D capacity) es (.initial host) = some s) {e : Event P}
    (hstep : s.step D capacity e = some s') : Sound D capacity host (es ++ [e]) s' := by
  cases hs.effect hcap hstep with
  | instances h =>
    have heffect := step_effect h
    refine ⟨hs.instances.effect heffect, hs.held, fun q query hq => ?_⟩
    have hquery := hs.queries q query hq
    exact hquery.keep id (heffect.query_owner hquery.owner) (heffect.catalog_subset query.db)
  | host host =>
    refine ⟨hs.instances, hs.held, fun q query hq => ?_⟩
    have hquery := hs.queries q query hq
    exact hquery.keep id hquery.owner (List.Subset.refl _)
  | refused hnew next =>
    refine hs.withStore ?_ next
    rintro q query hq rfl
    rw [hnew] at hq
    cases hq
  | entered hnew hi hfunc hdata next => exact hs.enter hrun hi hfunc hdata next
  | @received q query rows data output hq hrows hdelivers next =>
    refine ⟨hs.instances, rfl, fun q' query' hq' => ?_⟩
    have hrest : Function.update s.queries q (some (query.receive data output)) q' =
      some query' := hq'
    by_cases hne : q' = q
    · subst hne
      rw [Function.update_self] at hrest
      obtain rfl := Option.some.inj hrest
      exact (hs.queries q' query hq).receive hrun hrows hdelivers rfl
    · rw [Function.update_of_ne hne] at hrest
      have hquery := hs.queries q' query' hrest
      exact hquery.keep id hquery.owner (List.Subset.refl _)
  | @thrown q query hq hinvalid next => exact hs.finish (fun _ => id) q rfl
  | finished q => exact hs.finish (fun _ => id) q hs.held

theorem run_sound (hcap : 1 ≤ capacity)
    (hrun : run (State.step D capacity) es (.initial host) = some s) :
    Sound D capacity host es s :=
  run_history (P := Sound D capacity host) sound_initial
    (fun _ _ _ _ hrun hs hstep => hs.step hcap hrun hstep) hrun

def mounts : MountTable 64 :=
  [(⟨"/dev/sda1".toList, "/boot".toList, "ext4".toList, by decide⟩,
      some ⟨4096, 4096, 5000, 2000, 1500⟩),
    (⟨"proc".toList, "/proc".toList, "proc".toList, by decide⟩, some ⟨4096, 4096, 0, 0, 0⟩),
    (⟨"/dev/sdb1".toList, "/home".toList, "xfs".toList, by decide⟩,
      some ⟨4096, 4096, 9000, 8000, 8000⟩),
    (⟨"/dev/sdc1".toList, "/srv".toList, "ext4".toList, by decide⟩,
      some ⟨1024, 1024, 700, 650, 600⟩)]

def diskHost : LinuxHost :=
  { quietHost with
    mountTables := fun path => if path = "/etc/mtab".toList then some mounts else none }

/-- The disks are read when query 0 starts, and a call returns two of them. -/
def starting : List (Event (linux .reference)) :=
  loading.map .instances ++ [.start 0 0 .disk (some "KB".toList), .start 1 0 .os none, .fetch 0]

def fetching : List (Event (linux .reference)) := [.host quietHost, .fetch 1, .fetch 0, .fetch 0]

def after (es : List (Event (linux .reference))) : State (linux .reference) .reference :=
  (run (State.step .reference 2) es (.initial diskHost)).getD (.initial diskHost)

-- Irreducible, so that unification does not evaluate the run.
@[irreducible] def disks : List DiskInfo :=
  [⟨"/boot".toList, "/dev/sda1".toList, "ext4".toList, 20480000, 12288000, 6144000⟩,
    ⟨"/home".toList, "/dev/sdb1".toList, "xfs".toList, 36864000, 4096000, 32768000⟩,
    ⟨"/srv".toList, "/dev/sdc1".toList, "ext4".toList, 716800, 51200, 614400⟩]

@[irreducible] def diskRows : List Row := disks.map (diskRow .kb)

theorem run_after {es : List (Event (linux .reference))} {q : ℕ} {query : Query}
    (hq : (after es).queries q = some query) :
    run (State.step .reference 2) es (.initial diskHost) = some (after es) := by
  rw [after] at hq ⊢
  cases hrun : run (State.step .reference 2) es
      (.initial diskHost : State (linux .reference) .reference) with
  | none =>
    rw [hrun] at hq
    cases hq
  | some s => rfl

theorem query_after_starting : (after starting).queries 0 =
    some ⟨0, .disk .kb ⟨false, 2, disks⟩, diskRows.take 2, false⟩ := by decide +kernel

theorem query_after_fetching : (after (starting ++ fetching)).queries 0 =
    some ⟨0, .disk .kb ⟨true, 3, disks⟩, diskRows, true⟩ := by decide +kernel

theorem run_after_starting : run (State.step .reference 2) starting (.initial diskHost) =
    some (after starting) := run_after query_after_starting

theorem run_after_fetching : run (State.step .reference 2) (starting ++ fetching)
    (.initial diskHost) = some (after (starting ++ fetching)) := run_after query_after_fetching

theorem diskRows_length : diskRows.length = 3 := by decide +kernel

theorem diskRows_valid : ∀ row ∈ diskRows, Row.valid .reference row = true := by decide +kernel

theorem unread_disks : unread (diskRow .kb) ⟨false, 2, disks⟩ = diskRows.drop 2 := by
  rw [unread, diskRows, List.map_drop]

/-- Between two steps no handle is open and every query finds its instance. A query that
runs can be called and a registered function can be started, but for a probe that
overflows or does not return. -/
theorem queries_served (hcap : 1 ≤ capacity)
    (hrun : run (State.step D capacity) es (.initial host) = some s) :
    s.store.held = [] ∧
    (∀ q query, s.queries q = some query →
      getDbInstance s.instances query.db = .ok query.db ∧
      (s.step D capacity (.fetch q) = none → query.data.remaining = none ∧
        ∃ e, contents P s.host query.data.bound = .error e ∧ isException e = false)) ∧
    (∀ q i func unit, s.queries q = none → s.instances.pool.alive i = true →
      func ∈ s.instances.catalog i → (unit = none ∨ "unit" ∈ func.named_parameters) →
      s.step D capacity (.start q i func unit) = none → ∃ bound e,
        bindFunction D unit func = .ok bound ∧ contents P s.host bound = .error e ∧
          isException e = false) := by
  have hs := run_sound hcap hrun
  refine ⟨hs.held, fun q query hq => ⟨hs.getDbInstance_eq hq, fun hstep => ?_⟩,
    fun q i func unit hnew hi hfunc hunit hstep => ?_⟩
  · rw [step_fetch hq] at hstep
    rcases fetch_spec hcap hs hq with ⟨_, _, _, _, _, _, hcall⟩ | ⟨e, next, hends, hcall⟩
    · rw [hcall] at hstep
      cases hstep
    · rw [hcall] at hstep
      split_ifs at hstep with hexception
      cases hends with
      | failed hnone he => exact ⟨hnone, e, he, Bool.eq_false_iff.mpr hexception⟩
      | invalid hrows hbad => exact absurd rfl hexception
  · rw [step_start hnew hi hfunc hunit] at hstep
    cases hbind : bindFunction D unit func with
    | error message =>
      rw [hbind] at hstep
      cases hstep
    | ok bound =>
      rw [hbind] at hstep
      rcases begin_spec hs (hs.instances.registered_instance hi hfunc) q bound with
        ⟨data, next, -, hcall⟩ | ⟨e, next, he, hcall⟩
      · cases hcall.symm.trans hstep
      · replace hstep := hcall.symm.trans hstep
        split_ifs at hstep with hexception
        exact ⟨bound, e, rfl, he, Bool.eq_false_iff.mpr hexception⟩

theorem queries_served_fetching :
    (after (starting ++ fetching)).store.held = [] ∧
      getDbInstance (after (starting ++ fetching)).instances 0 = .ok 0 := by
  obtain ⟨hheld, hqueries, -⟩ := queries_served (by decide) run_after_fetching
  exact ⟨hheld, (hqueries 0 _ query_after_fetching).1⟩

/-- All the rows of a query are the table at one moment of the run, when the query was
started or called, whatever changed before and after it. -/
theorem rows_of_one_moment (hcap : 1 ≤ capacity)
    (hrun : run (State.step D capacity) es (.initial host) = some s) {q : ℕ} {query : Query}
    (hq : s.queries q = some query) (hread : query.delivered ≠ [] ∨ query.done = true) :
    ∃ es₁ e es₂, ∃ s₁ : State P O, ∃ rows, es = es₁ ++ e :: es₂ ∧
      run (State.step D capacity) es₁ (.initial host) = some s₁ ∧ e.calls q ∧
      (∀ e' ∈ es₂, ¬ e'.starts q) ∧ contents P s₁.host query.data.bound = .ok rows ∧
      query.delivered <+: rows ∧ (query.done = true → query.delivered = rows) := by
  have hquery := (run_sound hcap hrun).queries q query hq
  rcases hquery.rows with ⟨hnone, hempty⟩ | ⟨rest, hrest, hsince⟩
  · rcases hread with h | hdone
    · exact absurd hempty h
    · have hsome := hquery.drained hdone
      rw [hnone] at hsome
      cases hsome
  · obtain ⟨es₁, e, es₂, s₁, hes, hrun₁, ⟨hcalls, hcontents⟩, hlater⟩ := hsince
    refine ⟨es₁, e, es₂, s₁, _, hes, hrun₁, hcalls, hlater, hcontents, List.prefix_append _ _,
      fun hdone => ?_⟩
    have hsome := hquery.drained hdone
    rw [hrest] at hsome
    rw [Option.some.inj hsome, List.append_nil]

theorem rows_of_one_moment_fetching :
    ∃ es₁ e es₂, ∃ s₁ : State (linux .reference) .reference, ∃ rows,
      starting ++ fetching = es₁ ++ e :: es₂ ∧
      run (State.step .reference 2) es₁ (.initial diskHost) = some s₁ ∧ e.calls 0 ∧
      (∀ e' ∈ es₂, ¬ e'.starts 0) ∧ contents (linux .reference) s₁.host (.disk .kb) = .ok rows ∧
      diskRows <+: rows ∧ (true = true → diskRows = rows) :=
  rows_of_one_moment (by decide) run_after_fetching query_after_fetching (.inr rfl)

theorem rows_typed (hcap : 1 ≤ capacity)
    (hrun : run (State.step D capacity) es (.initial host) = some s) {q : ℕ} {query : Query}
    (hq : s.queries q = some query) : ∀ row ∈ query.delivered, query.data.bound.Typed row := by
  intro row hrow
  rcases ((run_sound hcap hrun).queries q query hq).rows with ⟨-, hempty⟩ | ⟨rest, -, hsince⟩
  · rw [hempty] at hrow
    cases hrow
  · obtain ⟨_, _, _, _, _, _, ⟨-, hcontents⟩, -⟩ := hsince
    exact contents_typed P _ hcontents row (List.mem_append_left rest hrow)

theorem rows_typed_fetching :
    diskRows.length = 3 ∧ ∀ row ∈ diskRows, (Bound.disk .kb).Typed row :=
  ⟨diskRows_length, rows_typed (by decide) run_after_fetching query_after_fetching⟩

/-- On Linux a query of memory, disks or networks can always be started, and a running query
but that of the CPU does not end with an exception when its rows have valid texts. -/
theorem linux_never_fails {host : LinuxHost} {es : List (Event (linux D))}
    {s : State (linux D) O} (hcap : 1 ≤ capacity)
    (hrun : run (State.step D capacity) es (.initial host) = some s) :
    (∀ q i func unit bound, s.queries q = none → s.instances.pool.alive i = true →
      func ∈ s.instances.catalog i → (unit = none ∨ "unit" ∈ func.named_parameters) →
      bindFunction D unit func = .ok bound → bound ≠ .cpu → bound ≠ .os →
      ∃ s' data, s.step D capacity (.start q i func unit) = some s' ∧
        s'.queries q = some ⟨i, data, [], false⟩ ∧ data.bound = bound) ∧
    (∀ q query, s.queries q = some query → query.data.bound ≠ .cpu →
      (∀ rest, query.data.remaining = some rest → ∀ row ∈ rest, Row.valid D row = true) →
      ∃ s' query', s.step D capacity (.fetch q) = some s' ∧ s'.queries q = some query' ∧
        query.delivered <+: query'.delivered) := by
  have hs := run_sound hcap hrun
  refine ⟨fun q i func unit bound hnew hi hfunc hunit hbind hcpu hos => ?_,
    fun q query hq hcpu hvalid => ?_⟩
  · have hdb := hs.instances.registered_instance hi hfunc
    rw [step_start hnew hi hfunc hunit, hbind]
    rcases begin_spec hs hdb q bound with ⟨data, next, hdata, hcall⟩ | ⟨e, next, he, -⟩
    · exact ⟨_, data, hcall, Function.update_self .., hdata.bound_eq⟩
    · obtain ⟨rows, hrows⟩ := linux_contents_ok D s.host hcpu hos
      cases hrows.symm.trans he
  · rw [step_fetch hq]
    rcases fetch_spec hcap hs hq with
      ⟨rows, data, output, next, -, -, hcall⟩ | ⟨e, next, hends, -⟩
    · exact ⟨_, _, hcall, Function.update_self .., List.prefix_append _ _⟩
    · -- Only the memory is read by a call, and its report neither fails nor has texts.
      cases hmemory : query.data.remaining with
      | some rest =>
        obtain ⟨row, hrow, hbad⟩ := hends.invalid_row hmemory
        cases hbad.symm.trans (hvalid rest hmemory row hrow)
      | none =>
        obtain ⟨unit, hunit⟩ := (ScanData.remaining_none hmemory).resolve_left hcpu
        cases hends with
        | failed _ he =>
          rw [hunit] at he
          cases he
        | invalid hrows hbad =>
          obtain ⟨row, hrow, hbad⟩ := hbad
          rcases hrows with hsome | ⟨-, hrows⟩
          · rw [hmemory] at hsome
            cases hsome
          · rw [hunit] at hrows
            cases hbad.symm.trans (memory_contents_valid hrows row hrow)

theorem linux_never_fails_fetching :
    ∃ s' query', (after starting).step .reference 2 (.fetch 0) = some s' ∧
      s'.queries 0 = some query' ∧ diskRows.take 2 <+: query'.delivered := by
  have hvalid : ∀ rest, some (unread (diskRow .kb) ⟨false, 2, disks⟩) = some rest →
      ∀ row ∈ rest, Row.valid .reference row = true := by
    rintro _ ⟨⟩ row hrow
    rw [unread_disks] at hrow
    exact diskRows_valid row (List.mem_of_mem_drop hrow)
  exact (linux_never_fails (by decide) run_after_starting).2 0 _ query_after_starting
    (by decide) hvalid

def Query.left (query : Query) (rest : List Row) : ℕ := if query.done then 0 else rest.length + 1

structure Query.Reads (D : DuckDB) (query : Query) (rows : List Row) (rest : List Row) : Prop where
  remaining : query.data.remaining = some rest
  rows_eq : query.delivered ++ rest = rows
  valid : ∀ row ∈ rest, Row.valid D row = true

def Event.fetches (q : ℕ) : Event P → Bool
  | .fetch q' => q' == q
  | _ => false

theorem Query.Reads.receive {query : Query} {all rest : List Row} (h : query.Reads D all rest)
    (hdone : query.done = true → rest = []) {rows : List Row} {data : ScanData}
    {output : Chunk Cell} {host : P.Host} (hrows : query.data.Continues P host rows)
    (hdelivers : Delivers rows query.data data output) :
    ∃ rest', (query.receive data output).Reads D all rest' ∧
      (query.receive data output).left rest' ≤ query.left rest - 1 := by
  have heq : rows = rest := by
    rcases hrows with hsome | ⟨hnone, -⟩
    · rw [h.remaining] at hsome
      exact (Option.some.inj hsome).symm
    · rw [h.remaining] at hnone
      cases hnone
  subst heq
  obtain ⟨rest', hrest', hsplit⟩ := hdelivers.split
  have hlater : ∀ row ∈ rest', Row.valid D row = true := by
    intro row hrow
    apply h.valid row
    rw [hsplit]
    exact List.mem_append_right _ hrow
  refine ⟨rest', ⟨hrest', ?_, hlater⟩, ?_⟩
  · show (query.delivered ++ output.rows query.data.bound.width) ++ rest' = all
    rw [List.append_assoc, ← hsplit]
    exact h.rows_eq
  · have hlength : rows.length = output.cardinality + rest'.length := by
      rw [hsplit, List.length_append, Chunk.rows, List.length_map, List.length_range]
    show (if (output.cardinality == 0) = true then 0 else rest'.length + 1) ≤ _
    by_cases hzero : output.cardinality = 0
    · rw [if_pos (beq_iff_eq.mpr hzero)]
      exact Nat.zero_le _
    · have hopen : ¬ query.done = true := by
        intro hd
        rw [hdone hd, List.length_nil] at hlength
        omega
      rw [if_neg (by simpa using hzero), Query.left, if_neg hopen]
      omega

theorem Sound.reads_step (hcap : 1 ≤ capacity) (hs : Sound D capacity host es s) {query : Query}
    (hq : s.queries q = some query) {all rest : List Row} (hreads : query.Reads D all rest)
    {e : Event P} (hstep : s.step D capacity e = some s') (hfinish : e ≠ .finish q) :
    ∃ query' rest', s'.queries q = some query' ∧ query'.Reads D all rest' ∧
      query'.left rest' ≤ query.left rest - [e].countP (Event.fetches q) := by
  have heffect := hs.effect hcap hstep
  by_cases hfetch : e = .fetch q
  · subst hfetch
    have hcount : [(Event.fetch q : Event P)].countP (Event.fetches q) = 1 := by
      simp [Event.fetches]
    rw [hcount]
    cases heffect with
    | @received _ query₁ rows data output hq₁ hrows hdelivers next =>
      obtain rfl : query = query₁ := Option.some.inj (hq.symm.trans hq₁)
      have hdone : query.done = true → rest = [] := fun h =>
        Option.some.inj (hreads.remaining.symm.trans ((hs.queries q query hq).drained h))
      obtain ⟨rest', hreads', hleft⟩ := hreads.receive hdone hrows hdelivers
      exact ⟨_, rest', Function.update_self .., hreads', hleft⟩
    | @thrown _ query₁ hq₁ hinvalid next =>
      obtain rfl : query = query₁ := Option.some.inj (hq.symm.trans hq₁)
      obtain ⟨row, hrow, hbad⟩ := hinvalid rest hreads.remaining
      cases hbad.symm.trans (hreads.valid row hrow)
  · have hcount : [e].countP (Event.fetches q) = 0 := by
      rw [List.countP_eq_zero]
      intro e' he' hfetches
      rw [List.mem_singleton.mp he'] at hfetches
      cases e with
      | fetch q' => exact hfetch (by rw [beq_iff_eq.mp hfetches])
      | instances _ => cases hfetches
      | host _ => cases hfetches
      | start _ _ _ _ => cases hfetches
      | finish _ => cases hfetches
    rw [hcount]
    exact ⟨query, rest, heffect.other hq hfetch hfinish, hreads, Nat.le_refl _⟩

/-- A query that has read its table returns all of it, in one call for each row and one
more at most, whatever happens between the calls, when the texts of its rows are valid. -/
theorem fetched_to_end (hcap : 1 ≤ capacity)
    (hrun : run (State.step D capacity) es (.initial host) = some s) {q : ℕ} {query : Query}
    (hq : s.queries q = some query) {rest : List Row}
    (hrest : query.data.remaining = some rest) (hvalid : ∀ row ∈ rest, Row.valid D row = true)
    {es' : List (Event P)}
    (hrun' : run (State.step D capacity) es' s = some s') (hfinish : .finish q ∉ es') :
    ∃ query', s'.queries q = some query' ∧ query'.delivered <+: query.delivered ++ rest ∧
      (rest.length < es'.countP (Event.fetches q) →
        query'.done = true ∧ query'.delivered = query.delivered ++ rest) := by
  have hreads : query.Reads D (query.delivered ++ rest) rest := ⟨hrest, rfl, hvalid⟩
  have hall : .finish q ∉ es' → ∃ query' rest', s'.queries q = some query' ∧
      query'.Reads D (query.delivered ++ rest) rest' ∧
      query'.left rest' ≤ query.left rest - es'.countP (Event.fetches q) := by
    refine run_history (P := fun es' s' => .finish q ∉ es' → ∃ query' rest',
      s'.queries q = some query' ∧ query'.Reads D (query.delivered ++ rest) rest' ∧
      query'.left rest' ≤ query.left rest - es'.countP (Event.fetches q))
      (fun _ => ⟨query, rest, hq, hreads, Nat.le_refl _⟩) ?_ hrun'
    intro es₁ s₁ e s₂ hrun₁ ih hstep hnot
    rw [List.mem_append, not_or, List.mem_singleton] at hnot
    obtain ⟨query₁, rest₁, hq₁, hreads₁, hleft₁⟩ := ih hnot.1
    have hs₁ : Sound D capacity host (es ++ es₁) s₁ := by
      apply run_sound hcap
      rw [run_append, hrun, Option.bind_some]
      exact hrun₁
    obtain ⟨query₂, rest₂, hq₂, hreads₂, hleft₂⟩ :=
      hs₁.reads_step hcap hq₁ hreads₁ hstep (Ne.symm hnot.2)
    refine ⟨query₂, rest₂, hq₂, hreads₂, ?_⟩
    rw [List.countP_append]
    omega
  obtain ⟨query', rest', hq', hreads', hleft⟩ := hall hfinish
  refine ⟨query', hq', ⟨rest', hreads'.rows_eq⟩, fun hcount => ?_⟩
  have hdone : query'.done = true := by
    by_contra hopen
    have hbound : query.left rest ≤ rest.length + 1 := by
      rw [Query.left]
      split_ifs <;> omega
    rw [Query.left, if_neg hopen] at hleft
    omega
  have hs' : Sound D capacity host (es ++ es') s' := by
    apply run_sound hcap
    rw [run_append, hrun, Option.bind_some]
    exact hrun'
  have hempty : rest' = [] :=
    Option.some.inj (hreads'.remaining.symm.trans ((hs'.queries q query' hq').drained hdone))
  have hrows := hreads'.rows_eq
  rw [hempty, List.append_nil] at hrows
  exact ⟨hdone, hrows⟩

theorem fetched_to_end_fetching :
    ∃ query', (after (starting ++ fetching)).queries 0 = some query' ∧
      query'.delivered <+: diskRows ∧
      (1 < fetching.countP (Event.fetches 0) →
        query'.done = true ∧ query'.delivered = diskRows) := by
  have hrest : (ScanData.disk .kb ⟨false, 2, disks⟩).remaining = some (diskRows.drop 2) :=
    congrArg some unread_disks
  have hrun' : run (State.step .reference 2) fetching (after starting) =
      some (after (starting ++ fetching)) := by
    have hrun := run_after_fetching
    rwa [run_append, run_after_starting, Option.bind_some] at hrun
  have hlength : (diskRows.drop 2).length = 1 := by rw [List.length_drop, diskRows_length]
  have hend := fetched_to_end (by decide) run_after_starting query_after_starting hrest
    (fun row hrow => diskRows_valid row (List.mem_of_mem_drop hrow)) hrun' (by simp [fetching])
  rwa [List.take_append_drop, hlength] at hend

/-- On a platform that is neither Linux nor macOS no query returns a row: a query of disks,
networks or the operating system is never let in, and the first call of another ends it. -/
theorem otherPlatform_no_rows (hcap : 1 ≤ capacity) {host : Unit}
    {es : List (Event otherPlatform)} {s : State otherPlatform O}
    (hrun : run (State.step D capacity) es (.initial host) = some s) {q : ℕ} {query : Query}
    (hq : s.queries q = some query) :
    (query.data.bound = .cpu ∨ ∃ unit, query.data.bound = .memory unit) ∧
      query.delivered = [] ∧ query.done = false ∧
      ∃ s', s.step D capacity (.fetch q) = some s' ∧ s'.queries q = none := by
  have hs := run_sound hcap hrun
  have hquery := hs.queries q query hq
  have herror : ∀ bound, ∃ message, contents otherPlatform () bound =
      .error (.notImplemented message) := fun bound => by cases bound <;> exact ⟨_, rfl⟩
  obtain ⟨hnone, hempty⟩ : query.data.remaining = none ∧ query.delivered = [] := by
    rcases hquery.rows with h | ⟨rest, -, hsince⟩
    · exact h
    · obtain ⟨_, _, _, s₁, _, _, ⟨-, hcontents⟩, -⟩ := hsince
      obtain ⟨message, hmessage⟩ := herror query.data.bound
      cases hmessage.symm.trans hcontents
  refine ⟨ScanData.remaining_none hnone, hempty, ?_, ?_⟩
  · rw [← Bool.not_eq_true]
    intro hdone
    cases hnone.symm.trans (hquery.drained hdone)
  · obtain ⟨message, hmessage⟩ := herror query.data.bound
    rw [step_fetch hq]
    rcases fetch_spec hcap hs hq with ⟨rows, _, _, _, hrows, _, _⟩ | ⟨e, next, hends, hcall⟩
    · rcases hrows with hsome | ⟨-, hcontents⟩
      · cases hnone.symm.trans hsome
      · cases hmessage.symm.trans hcontents
    · have hexception : isException e = true := by
        cases hends with
        | failed _ he =>
          cases hmessage.symm.trans he
          rfl
        | invalid _ _ => rfl
      rw [hcall, if_pos hexception]
      exact ⟨_, rfl, Function.update_self ..⟩

end SystemStats.Sessions
