import SystemStats.HeldResources
import SystemStats.NetworkStats
import SystemStats.DiskStats
import SystemStats.ScopeGuards

/-!
# Actions on the host

The probes open files, directories, mount tables and address lists. To log what
they cannot open they look up the database instance of their context, and that
lookup throws when there is none. A `Host` holds the replies of the system
during one probe; `none` is a call that fails.
-/

namespace SystemStats.HostActions
open TextLines NetworkStats DiskStats ScopeGuards HeldResources HeldResources.Action

inductive Resource
  | stream
  | file
  | directory
  | mountTable
  | addresses
  | memory
  deriving DecidableEq, Repr

/-- How a call ends without a value: with an exception, with a signed overflow, which
C++ leaves undefined, or with a loop that has not ended within its fuel. -/
inductive Stop
  | internal (message : String)
  | notImplemented (message : String)
  | cast
  | invalidUnicode
  | overflow
  | diverges
  deriving DecidableEq, Repr

abbrev Action := HeldResources.Action Resource Stop

abbrev Open := Handle Resource

variable {α : Type}

def orOverflow : Option α → Except Stop α
  | none => .error .overflow
  | some a => .ok a

def orCast : Option α → Except Stop α
  | none => .error .cast
  | some a => .ok a

/-- The result of `GetDbInstance`: an instance, by its number, or the exception. -/
abbrev Instance := Except Stop ℕ

def logDebug : Instance → Action Unit
  | .ok _ => pure ()
  | .error e => throw e

def logWhen (failed : Bool) (db : Instance) : Action Unit :=
  if failed then logDebug db else pure ()

def scopeExit (func : Store Resource → Option (Store Resource)) (body : Action α) : Action α :=
  ensure (ScopeGuard.ofFunc (some func)).destroy body

/-- An `std::ifstream`, which its destructor closes. The body gets what can be read,
`none` when the stream is not open. -/
def withStream (file : Option Text) (body : Option Text → Action α) : Action α :=
  match file with
  | none => body none
  | some content => do
    let stream ← acquire .stream
    ensure (release stream) (do
      use stream
      body (some content))

structure Utsname where
  sysname : Text
  release : Text
  version : Text
  machine : Text
  deriving DecidableEq, Repr

structure LinuxHost where
  files : Text → SysFile
  directories : Text → Option (List Text)
  mountTables : Text → Option (MountTable 64)
  getifaddrs : Option (List IfAddrs)
  getnameinfo : SockAddr → Option Text
  uname : Option Utsname
  gethostname : Option Text
  uptime : Option ℤ
  bigEndian : Bool

def quietHost : LinuxHost where
  files _ := .absent
  directories _ := none
  mountTables _ := none
  getifaddrs := none
  getnameinfo _ := none
  uname := none
  gethostname := none
  uptime := none
  bigEndian := false

def opened : SysFile → Option Text
  | .absent => none
  | .unreadable => some []
  | .content text => some text

def LinuxHost.opened (host : LinuxHost) (path : String) : Option Text :=
  HostActions.opened (host.files path.toList)

section Results

variable {β : Type} {x : Except Stop α} {a : α}

theorem orOverflow_bind (x : Option α) (f : α → Option β) :
    orOverflow (x.bind f) = (orOverflow x).bind (fun a => orOverflow (f a)) := by
  cases x <;> rfl

theorem bind_eq_ok_iff {f : α → Except Stop β} {b : β} :
    (x >>= f) = .ok b ↔ ∃ a, x = .ok a ∧ f a = .ok b := by
  cases x with
  | error e => exact ⟨fun h => (by cases h), fun ⟨_, h, _⟩ => (by cases h)⟩
  | ok a =>
    constructor
    · exact fun h => ⟨a, rfl, h⟩
    · rintro ⟨_, ⟨⟩, h⟩
      exact h

variable {c : Prop} [Decidable c] {e : Stop}

theorem guard_eq_ok_iff : (if c then x else .error e) = .ok a ↔ c ∧ x = .ok a := by
  by_cases hc : c
  · rw [if_pos hc, and_iff_right hc]
  · rw [if_neg hc]
    exact ⟨fun h => (by cases h), fun h => absurd h.1 hc⟩

theorem guard_bind (f : α → Except Stop β) :
    ((if c then .ok a else .error e) >>= f) = if c then f a else .error e := by
  split_ifs <;> rfl

end Results

/-- With an instance the action returns `r`. Without one it returns the same or throws what
the lookup throws: there is no other effect of logging. -/
structure Reports (need : List Open) (x : Instance → Action α) (r : Except Stop α) : Prop where
  found : ∀ i, Denotes need (x (.ok i)) r
  thrown : ∀ e, Ends need (x (.error e)) (fun r' => r' = r ∨ r' = .error e)

namespace Reports

variable {β : Type} {need : List Open} {x : Instance → Action α} {r : Except Stop α}

theorem tidy (hx : Reports need x r) (db : Instance) : Tidy need (x db) := by
  cases db with
  | ok i => exact (hx.found i).tidy
  | error e => exact (hx.thrown e).mono fun _ _ => trivial

theorem of_denotes {y : Action α} (h : Denotes need y r) : Reports need (fun _ => y) r :=
  ⟨fun _ => h, fun _ => h.mono fun _ => .inl⟩

theorem pure (a : α) : Reports need (fun _ => Pure.pure a) (.ok a) := of_denotes (Denotes.pure a)

theorem throw (e : Stop) : Reports need (fun _ => (MonadExcept.throw e : Action α)) (.error e) :=
  of_denotes (Denotes.throw e)

theorem ofExcept (v : Except Stop α) : Reports need (fun _ => ofExcept v) v :=
  of_denotes (Denotes.ofExcept v)

theorem use {h : Open} (hmem : h ∈ need) : Reports need (fun _ => use h) (.ok ()) :=
  of_denotes (Denotes.use hmem)

theorem logDebug : Reports need logDebug (.ok ()) :=
  ⟨fun _ => Denotes.pure (), fun _ => Ends.throw (.inr rfl)⟩

theorem logWhen (failed : Bool) : Reports need (logWhen failed) (.ok ()) := by
  cases failed with
  | false => exact pure ()
  | true => exact logDebug

theorem bind {f : Instance → α → Action β} {g : α → Except Stop β} (hx : Reports need x r)
    (hf : ∀ a, Reports need (fun db => f db a) (g a)) :
    Reports need (fun db => x db >>= f db) (r >>= g) := by
  refine ⟨fun i => (hx.found i).bind fun a _ => (hf a).found i, fun e => ?_⟩
  refine (hx.thrown e).bind ?_ ?_
  · rintro a (rfl | h)
    · exact (hf a).thrown e
    · cases h
  · rintro e' (rfl | h)
    · exact .inl rfl
    · obtain rfl := Except.error.inj h
      exact .inr rfl

theorem seq {x : Instance → Action Unit} {f : Instance → Unit → Action β} {r : Except Stop β}
    (hx : Reports need x (.ok ())) (hf : Reports need (fun db => f db ()) r) :
    Reports need (fun db => x db >>= f db) r :=
  hx.bind fun _ => hf

theorem guarded (kind : Resource) {body : Instance → Open → Action α}
    (hbody : ∀ h, Reports (h :: need) (fun db => body db h) r) :
    Reports need (fun db => acquire kind >>= fun h => scopeExit (release h) (body db h)) r :=
  ⟨fun i => Denotes.bracket kind fun h => (hbody h).found i,
    fun e => Ends.bracket kind fun h => (hbody h).thrown e⟩

theorem withStream {file : Option Text} {body : Instance → Option Text → Action α}
    (hbody : ∀ need, Reports need (fun db => body db file) r) :
    Reports need (fun db => withStream file (body db)) r := by
  cases file with
  | none => exact hbody need
  | some content =>
    unfold HostActions.withStream
    exact guarded Resource.stream fun h => (use List.mem_cons_self).seq (hbody (h :: need))

end Reports

/-- Whatever the lookup says and whatever is open, the probe misuses no handle, leaves the
same handles open, and returns the report or throws what the lookup throws. -/
def Refines (probe : Instance → Action α) (report : Except Stop α) : Prop :=
  ∀ (db : Instance) (s : Store Resource), ∃ r next,
    exec (probe db) s = some (r, ⟨next, s.held⟩) ∧ (r = report ∨ ∃ e, db = .error e ∧ r = .error e)

theorem Reports.refines {x : Instance → Action α} {r : Except Stop α} (hx : Reports [] x r) :
    Refines x r := by
  intro db s
  cases db with
  | ok i =>
    obtain ⟨next, hrun⟩ := (hx.found i).exec_eq (List.nil_subset s.held)
    exact ⟨r, next, hrun, .inl rfl⟩
  | error e =>
    obtain ⟨r', next, hrun, hr'⟩ := hx.thrown e s (List.nil_subset _)
    exact ⟨r', next, hrun, hr'.imp_right fun h => ⟨e, rfl, h⟩⟩

end SystemStats.HostActions
