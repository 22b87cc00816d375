import Mathlib.Data.List.Basic
import Mathlib.Tactic.Common

/-!
# Programs that hold resources

An action runs on a store of open handles. It may acquire one, use it and
release it; using or releasing a handle that is not held is undefined, which is
`none`. `ensure` runs a cleanup on every way out of a block, by a value or by an
error. `Ends` says that an action misuses no handle, gives back exactly the
handles it was started with, and ends as a postcondition says.
-/

namespace HeldResources

abbrev Handle (κ : Type) := ℕ × κ

structure Store (κ : Type) where
  next : ℕ
  held : List (Handle κ)

def Store.empty {κ : Type} : Store κ := ⟨0, []⟩

abbrev Action (κ ε : Type) := ExceptT ε (StateT (Store κ) Option)

variable {κ ε α β : Type}

namespace Action

def exec (x : Action κ ε α) (s : Store κ) : Option (Except ε α × Store κ) := (ExceptT.run x).run s

def ofExec (f : Store κ → Option (Except ε α × Store κ)) : Action κ ε α := ExceptT.mk f

def acquire (kind : κ) : Action κ ε (Handle κ) :=
  ofExec (fun s => some (.ok (s.next, kind), ⟨s.next + 1, (s.next, kind) :: s.held⟩))

def ensure (cleanup : Store κ → Option (Store κ)) (body : Action κ ε α) : Action κ ε α :=
  ofExec (fun s => (body.exec s).bind (fun r => (cleanup r.2).map (fun s => (r.1, s))))

section Handles

variable [DecidableEq κ]

def use (h : Handle κ) : Action κ ε Unit :=
  ofExec (fun s => if h ∈ s.held then some (.ok (), s) else none)

def release (h : Handle κ) (s : Store κ) : Option (Store κ) :=
  if h ∈ s.held then some { s with held := s.held.erase h } else none

def close (h : Handle κ) : Action κ ε Unit :=
  ofExec (fun s => (release h s).map (fun s => (.ok (), s)))

end Handles

theorem exec_acquire (kind : κ) (s : Store κ) :
    exec (acquire kind : Action κ ε (Handle κ)) s =
      some (.ok (s.next, kind), ⟨s.next + 1, (s.next, kind) :: s.held⟩) := rfl

theorem exec_bind (x : Action κ ε α) (f : α → Action κ ε β) (s : Store κ) :
    exec (x >>= f) s = (exec x s).bind (fun r =>
      match r.1 with
      | .ok a => exec (f a) r.2
      | .error e => some (.error e, r.2)) := by
  show (ExceptT.run x s).bind _ = (ExceptT.run x s).bind _
  refine Option.bind_congr fun r _ => ?_
  obtain ⟨q, s'⟩ := r
  cases q <;> rfl

theorem exec_bind_ok {x : Action κ ε α} {s s' : Store κ} {a : α}
    (h : exec x s = some (.ok a, s')) (f : α → Action κ ε β) :
    exec (x >>= f) s = exec (f a) s' := by
  rw [exec_bind, h, Option.bind_some]

theorem exec_bind_error {x : Action κ ε α} {s s' : Store κ} {e : ε}
    (h : exec x s = some (.error e, s')) (f : α → Action κ ε β) :
    exec (x >>= f) s = some (.error e, s') := by
  rw [exec_bind, h, Option.bind_some]

theorem exec_bracket [DecidableEq κ] (kind : κ) {body : Handle κ → Action κ ε α} {s : Store κ}
    {r : Except ε α} {next : ℕ}
    (hrun : exec (body (s.next, kind)) ⟨s.next + 1, (s.next, kind) :: s.held⟩ =
      some (r, ⟨next, (s.next, kind) :: s.held⟩)) :
    exec (acquire kind >>= fun h => ensure (release h) (body h)) s =
      some (r, ⟨next, s.held⟩) := by
  set h : Handle κ := (s.next, kind)
  have hcleanup : release h ⟨next, h :: s.held⟩ = some ⟨next, s.held⟩ := by
    rw [release, if_pos List.mem_cons_self, List.erase_cons_head]
  refine (exec_bind_ok (exec_acquire kind s) _).trans ?_
  show (exec (body h) _).bind _ = _
  rw [hrun, Option.bind_some, hcleanup, Option.map_some]

/-- A block without a cleanup: an error skips the `close` and leaves the handle. -/
def unguarded [DecidableEq κ] (kind : κ) (body : Handle κ → Action κ ε α) : Action κ ε α := do
  let h ← acquire kind
  let a ← body h
  close h
  return a

theorem exec_unguarded [DecidableEq κ] (kind : κ) {body : Handle κ → Action κ ε α} {s : Store κ}
    {r : Except ε α} {next : ℕ}
    (hrun : exec (body (s.next, kind)) ⟨s.next + 1, (s.next, kind) :: s.held⟩ =
      some (r, ⟨next, (s.next, kind) :: s.held⟩)) :
    exec (unguarded kind body) s = some (r, ⟨next,
      match r with
      | .ok _ => s.held
      | .error _ => (s.next, kind) :: s.held⟩) := by
  set h : Handle κ := (s.next, kind)
  refine (exec_bind_ok (exec_acquire kind s) _).trans ?_
  cases r with
  | error e => exact exec_bind_error hrun _
  | ok a =>
    have hclose : exec (close h : Action κ ε Unit) ⟨next, h :: s.held⟩ =
        some (.ok (), ⟨next, s.held⟩) := by
      show (release h _).map _ = _
      rw [release, if_pos List.mem_cons_self, List.erase_cons_head, Option.map_some]
    exact (exec_bind_ok hrun _).trans (exec_bind_ok hclose _)

end Action

open HeldResources.Action

/-- The action ends as `post` says, with the handles it was started with. -/
def Ends (need : List (Handle κ)) (x : Action κ ε α) (post : Except ε α → Prop) : Prop :=
  ∀ s : Store κ, need ⊆ s.held → ∃ r next, exec x s = some (r, ⟨next, s.held⟩) ∧ post r

namespace Ends

variable {need : List (Handle κ)} {x : Action κ ε α} {post : Except ε α → Prop}

theorem mono (hx : Ends need x post) {post' : Except ε α → Prop} (h : ∀ r, post r → post' r) :
    Ends need x post' := by
  intro s hs
  obtain ⟨r, next, hrun, hpost⟩ := hx s hs
  exact ⟨r, next, hrun, h r hpost⟩

theorem pure {a : α} (h : post (.ok a)) : Ends need (Pure.pure a : Action κ ε α) post :=
  fun s _ => ⟨.ok a, s.next, rfl, h⟩

theorem throw {e : ε} (h : post (.error e)) :
    Ends need (MonadExcept.throw e : Action κ ε α) post :=
  fun s _ => ⟨.error e, s.next, rfl, h⟩

theorem bind {f : α → Action κ ε β} {post' : Except ε β → Prop} (hx : Ends need x post)
    (hok : ∀ a, post (.ok a) → Ends need (f a) post')
    (herror : ∀ e, post (.error e) → post' (.error e)) : Ends need (x >>= f) post' := by
  intro s hs
  obtain ⟨r, next, hrun, hpost⟩ := hx s hs
  cases r with
  | error e => exact ⟨.error e, next, exec_bind_error hrun f, herror e hpost⟩
  | ok a =>
    obtain ⟨r', next', hrun', hpost'⟩ := hok a hpost ⟨next, s.held⟩ hs
    exact ⟨r', next', (exec_bind_ok hrun f).trans hrun', hpost'⟩

variable [DecidableEq κ]

theorem use {h : Handle κ} (hmem : h ∈ need) {post : Except ε Unit → Prop} (hpost : post (.ok ())) :
    Ends need (use h : Action κ ε Unit) post :=
  fun s hs => ⟨.ok (), s.next, if_pos (hs hmem), hpost⟩

theorem bracket (kind : κ) {body : Handle κ → Action κ ε α}
    (hbody : ∀ h, Ends (h :: need) (body h) post) :
    Ends need (acquire kind >>= fun h => ensure (release h) (body h)) post := by
  intro s hs
  obtain ⟨r, next, hrun, hpost⟩ := hbody (s.next, kind) ⟨s.next + 1, (s.next, kind) :: s.held⟩
    (List.cons_subset_cons _ hs)
  exact ⟨r, next, exec_bracket kind hrun, hpost⟩

theorem unguarded (kind : κ) {body : Handle κ → Action κ ε α}
    (hbody : ∀ h, Ends (h :: need) (body h) (fun r => ∃ a, r = .ok a ∧ post (.ok a))) :
    Ends need (unguarded kind body) post := by
  intro s hs
  obtain ⟨_, next, hrun, a, rfl, hpost⟩ := hbody (s.next, kind)
    ⟨s.next + 1, (s.next, kind) :: s.held⟩ (List.cons_subset_cons _ hs)
  exact ⟨.ok a, next, exec_unguarded kind hrun, hpost⟩

end Ends

def Tidy (need : List (Handle κ)) (x : Action κ ε α) : Prop := Ends need x (fun _ => True)

/-- Tidy, and the result is `r` whatever else is held. -/
def Denotes (need : List (Handle κ)) (x : Action κ ε α) (r : Except ε α) : Prop :=
  Ends need x (· = r)

namespace Denotes

variable {need : List (Handle κ)} {x : Action κ ε α} {r : Except ε α}

theorem exec_eq (hx : Denotes need x r) {s : Store κ} (hs : need ⊆ s.held) :
    ∃ next, exec x s = some (r, ⟨next, s.held⟩) := by
  obtain ⟨_, next, hrun, rfl⟩ := hx s hs
  exact ⟨next, hrun⟩

theorem tidy (hx : Denotes need x r) : Tidy need x := hx.mono fun _ _ => trivial

theorem pure (a : α) : Denotes need (Pure.pure a : Action κ ε α) (.ok a) := Ends.pure rfl

theorem throw (e : ε) : Denotes need (MonadExcept.throw e : Action κ ε α) (.error e) :=
  Ends.throw rfl

theorem ofExcept (r : Except ε α) : Denotes need (ofExcept r : Action κ ε α) r := by
  cases r with
  | error e => exact throw e
  | ok a => exact pure a

theorem bind {f : α → Action κ ε β} {g : α → Except ε β} (hx : Denotes need x r)
    (hf : ∀ a, r = .ok a → Denotes need (f a) (g a)) : Denotes need (x >>= f) (r >>= g) := by
  refine Ends.bind hx ?_ ?_
  · rintro a rfl
    exact hf a rfl
  · rintro e rfl
    rfl

theorem bind_error {f : α → Action κ ε β} {e : ε} (hx : Denotes need x (.error e)) :
    Denotes need (x >>= f) (.error e) := by
  refine Ends.bind hx (fun _ h => by cases h) ?_
  rintro _ ⟨⟩
  rfl

theorem seq {a : α} {f : α → Action κ ε β} {r' : Except ε β} (hx : Denotes need x (.ok a))
    (hf : Denotes need (f a) r') : Denotes need (x >>= f) r' := by
  refine Ends.bind hx ?_ fun _ h => by cases h
  rintro _ ⟨⟩
  exact hf

variable [DecidableEq κ]

theorem use {h : Handle κ} (hmem : h ∈ need) : Denotes need (use h : Action κ ε Unit) (.ok ()) :=
  Ends.use hmem rfl

theorem bracket (kind : κ) {body : Handle κ → Action κ ε α}
    (hbody : ∀ h, Denotes (h :: need) (body h) r) :
    Denotes need (acquire kind >>= fun h => ensure (release h) (body h)) r :=
  Ends.bracket kind hbody

theorem unguarded (kind : κ) {body : Handle κ → Action κ ε α} {a : α}
    (hbody : ∀ h, Denotes (h :: need) (body h) (.ok a)) :
    Denotes need (unguarded kind body) (.ok a) :=
  Ends.unguarded kind fun h => (hbody h).mono fun _ hr => ⟨a, hr, rfl⟩

end Denotes

def repeated (x : Action κ ε α) : ℕ → Store κ → Option (Store κ)
  | 0, s => some s
  | n + 1, s => (exec x s).bind (fun r => repeated x n r.2)

theorem repeated_of_tidy {x : Action κ ε α} (hx : Tidy [] x) (n : ℕ) (s : Store κ) :
    ∃ next, repeated x n s = some ⟨next, s.held⟩ := by
  induction n generalizing s with
  | zero => exact ⟨s.next, rfl⟩
  | succ n ih =>
    obtain ⟨r, next, hrun, -⟩ := hx s (List.nil_subset _)
    obtain ⟨next', hrest⟩ := ih ⟨next, s.held⟩
    exact ⟨next', by rw [repeated, hrun]; exact hrest⟩

theorem repeated_unguarded [DecidableEq κ] {kind : κ} {body : Handle κ → Action κ ε α} {e : ε}
    (hbody : ∀ h, Denotes [h] (body h) (.error e)) (n : ℕ) (s : Store κ) :
    ∃ s', repeated (unguarded kind body) n s = some s' ∧
      ∃ leaked, s'.held = leaked ++ s.held ∧ leaked.length = n ∧ ∀ h ∈ leaked, h.2 = kind := by
  induction n generalizing s with
  | zero => exact ⟨s, rfl, [], rfl, rfl, by simp⟩
  | succ n ih =>
    have hmem : [(s.next, kind)] ⊆ (s.next, kind) :: s.held := by simp
    obtain ⟨next, hrun⟩ := (hbody (s.next, kind)).exec_eq (s := ⟨s.next + 1, _⟩) hmem
    have hleft := exec_unguarded kind hrun
    obtain ⟨s', hrest, leaked, hheld, hlength, hkind⟩ := ih ⟨next, (s.next, kind) :: s.held⟩
    refine ⟨s', by rw [repeated, hleft]; exact hrest, leaked ++ [(s.next, kind)], ?_, ?_, ?_⟩
    · rw [hheld, List.append_assoc, List.singleton_append]
    · rw [List.length_append, hlength, List.length_singleton]
    · intro h hmem
      rcases List.mem_append.mp hmem with hmem | hmem
      · exact hkind h hmem
      · rw [List.mem_singleton.mp hmem]

end HeldResources
