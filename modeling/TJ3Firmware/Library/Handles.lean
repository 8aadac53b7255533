import Mathlib.Data.List.TakeWhile

namespace Library.Handles

variable {E H : Type} [DecidableEq H]

section Discipline

-- What an event is to the handles: it opens or closes one, or it needs one of a
-- kind to be open.
inductive Role (H : Type)
  | opens (handle : H)
  | closes (handle : H)
  | uses (kind : H → Prop)
  | silent

def Role.opensIt (handle : H) : Role H → Bool
  | .opens other => other = handle
  | _ => false

def Role.closesIt (handle : H) : Role H → Bool
  | .closes other => other = handle
  | _ => false

variable (role : E → Role H)

def opened (handle : H) (trace : List E) : Nat := trace.countP fun event => (role event).opensIt handle

def closed (handle : H) (trace : List E) : Nat := trace.countP fun event => (role event).closesIt handle

def Shut (handle : H) (trace : List E) : Prop := opened role handle trace = closed role handle trace

def Open (handle : H) (trace : List E) : Prop := opened role handle trace = closed role handle trace + 1

-- A handle is opened while it is shut, and closed and used while it is open.
def Allowed (before : List E) (event : E) : Prop :=
  match role event with
  | .opens handle => Shut role handle before
  | .closes handle => Open role handle before
  | .uses kind => ∃ handle, kind handle ∧ Open role handle before
  | .silent => True

def Orderly (trace : List E) : Prop :=
  ∀ before event after, trace = before ++ event :: after → Allowed role before event

-- After each opening there is one closing, before the next opening if any.
def ClosedOnce (trace : List E) : Prop :=
  ∀ before event after handle, trace = before ++ event :: after → role event = .opens handle →
    closed role handle (after.takeWhile fun later => !(role later).opensIt handle) = 1

end Discipline

section Walk

variable {role : E → Role H}

-- The events take the one open handle, if there is one, to another.
inductive Walk (role : E → Role H) : Option H → List E → Option H → Prop
  | nil (held : Option H) : Walk role held [] held
  | opens (handle : H) (event : E) (trace : List E) (last : Option H) (hrole : role event = .opens handle)
      (rest : Walk role (some handle) trace last) : Walk role none (event :: trace) last
  | closes (handle : H) (event : E) (trace : List E) (last : Option H) (hrole : role event = .closes handle)
      (rest : Walk role none trace last) : Walk role (some handle) (event :: trace) last
  | uses (handle : H) (kind : H → Prop) (event : E) (trace : List E) (last : Option H) (hrole : role event = .uses kind)
      (hkind : kind handle) (rest : Walk role (some handle) trace last) : Walk role (some handle) (event :: trace) last
  | silent (held : Option H) (event : E) (trace : List E) (last : Option H) (hrole : role event = .silent)
      (rest : Walk role held trace last) : Walk role held (event :: trace) last

omit [DecidableEq H] in
theorem Walk.append {first middle last : Option H} {before after : List E} (h : Walk role first before middle)
    (h' : Walk role middle after last) : Walk role first (before ++ after) last := by
  induction h with
  | nil held => exact h'
  | opens handle event trace last hrole _ ih => exact .opens handle event _ _ hrole (ih h')
  | closes handle event trace last hrole _ ih => exact .closes handle event _ _ hrole (ih h')
  | uses handle kind event trace last hrole hkind _ ih => exact .uses handle kind event _ _ hrole hkind (ih h')
  | silent held event trace last hrole _ ih => exact .silent held event _ _ hrole (ih h')

omit [DecidableEq H] in
theorem walk_flatMap {C : Type} (traceOf : C → List E) (calls : List C)
    (h : ∀ call ∈ calls, Walk role none (traceOf call) none) : Walk role none (calls.flatMap traceOf) none := by
  induction calls with
  | nil => exact .nil none
  | cons call rest ih =>
      obtain ⟨hcall, hrest⟩ := List.forall_mem_cons.mp h
      exact hcall.append (ih hrest)

omit [DecidableEq H] in
theorem walk_silent (held : Option H) (trace : List E) (h : ∀ event ∈ trace, role event = .silent) :
    Walk role held trace held := by
  induction trace with
  | nil => exact .nil held
  | cons event rest ih =>
      obtain ⟨hevent, hrest⟩ := List.forall_mem_cons.mp h
      exact .silent held event _ _ hevent (ih hrest)

omit [DecidableEq H] in
-- Opened, used and closed.
theorem walk_session (handle : H) (first last : E) (middle : List E) (hopens : role first = .opens handle)
    (huses : ∀ event ∈ middle, ∃ kind, role event = .uses kind ∧ kind handle) (hcloses : role last = .closes handle) :
    Walk role none (first :: (middle ++ [last])) none := by
  refine .opens handle first _ _ hopens ?_
  induction middle with
  | nil => exact .closes handle last _ _ hcloses (.nil none)
  | cons event rest ih =>
      obtain ⟨⟨kind, hrole, hkind⟩, hrest⟩ := List.forall_mem_cons.mp huses
      exact .uses handle kind event _ _ hrole hkind (ih hrest)

end Walk

section Tracks

variable {role : E → Role H}

-- What the counts say when just this handle is open.
def Tracks (role : E → Role H) (held : Option H) (trace : List E) : Prop :=
  ∀ handle, opened role handle trace = closed role handle trace + if held = some handle then 1 else 0

theorem tracks_nil : Tracks role none [] := by
  intro handle
  rfl

theorem opened_append_singleton (handle : H) (trace : List E) (event : E) :
    opened role handle (trace ++ [event]) = opened role handle trace + if (role event).opensIt handle then 1 else 0 := by
  rw [opened, List.countP_append, List.countP_singleton, ← opened]

theorem closed_append_singleton (handle : H) (trace : List E) (event : E) :
    closed role handle (trace ++ [event]) = closed role handle trace + if (role event).closesIt handle then 1 else 0 := by
  rw [closed, List.countP_append, List.countP_singleton, ← closed]

theorem Tracks.opens {trace : List E} (h : Tracks role none trace) (handle : H) (event : E)
    (hrole : role event = .opens handle) : Tracks role (some handle) (trace ++ [event]) := by
  intro other
  have hother := h other
  rw [opened_append_singleton, closed_append_singleton, hrole]
  simpa [Role.opensIt, Role.closesIt] using hother

theorem Tracks.closes {trace : List E} {handle : H} (h : Tracks role (some handle) trace) (event : E)
    (hrole : role event = .closes handle) : Tracks role none (trace ++ [event]) := by
  intro other
  have hother := h other
  rw [opened_append_singleton, closed_append_singleton, hrole]
  simpa [Role.opensIt, Role.closesIt] using hother

theorem Tracks.still {trace : List E} {held : Option H} (h : Tracks role held trace) (event : E)
    (hopens : ∀ handle, (role event).opensIt handle = false) (hcloses : ∀ handle, (role event).closesIt handle = false) :
    Tracks role held (trace ++ [event]) := by
  intro other
  have hother := h other
  rw [opened_append_singleton, closed_append_singleton, hopens, hcloses]
  exact hother

theorem Tracks.isOpen {trace : List E} {handle : H} (h : Tracks role (some handle) trace) : Open role handle trace := by
  have hcount := h handle
  rwa [if_pos rfl] at hcount

-- After these events each further one is allowed, and then just this handle is
-- open.
def Follows (role : E → Role H) (earlier trace : List E) (last : Option H) : Prop :=
  (∀ before event after, trace = before ++ event :: after → Allowed role (earlier ++ before) event) ∧
    Tracks role last (earlier ++ trace)

theorem Follows.cons {earlier trace : List E} {event : E} {last : Option H} (hevent : Allowed role earlier event)
    (hrest : Follows role (earlier ++ [event]) trace last) : Follows role earlier (event :: trace) last := by
  obtain ⟨hallowed, hlast⟩ := hrest
  refine ⟨?_, ?_⟩
  · intro before later after htrace
    cases before with
    | nil =>
        obtain ⟨rfl, -⟩ := List.cons.inj htrace
        rwa [List.append_nil]
    | cons head before =>
        obtain ⟨rfl, htail⟩ := List.cons.inj htrace
        have hlater := hallowed before later after htail
        rwa [List.append_assoc] at hlater
  · rwa [List.append_assoc] at hlast

-- Along a walk each event is allowed, and the counts keep up with the handle.
theorem Walk.follows {first last : Option H} {trace : List E} (h : Walk role first trace last) (earlier : List E)
    (hearlier : Tracks role first earlier) : Follows role earlier trace last := by
  induction h generalizing earlier with
  | nil held =>
      refine ⟨fun before event after htrace => absurd htrace (by simp), ?_⟩
      rwa [List.append_nil]
  | opens handle event trace last hrole _ ih =>
      have hevent : Allowed role earlier event := by
        rw [Allowed, hrole]
        exact hearlier handle
      exact Follows.cons hevent (ih _ (hearlier.opens handle event hrole))
  | closes handle event trace last hrole _ ih =>
      have hevent : Allowed role earlier event := by
        rw [Allowed, hrole]
        exact hearlier.isOpen
      exact Follows.cons hevent (ih _ (hearlier.closes event hrole))
  | uses handle kind event trace last hrole hkind _ ih =>
      have hevent : Allowed role earlier event := by
        rw [Allowed, hrole]
        exact ⟨handle, hkind, hearlier.isOpen⟩
      have hstill := hearlier.still event (by simp [hrole, Role.opensIt]) (by simp [hrole, Role.closesIt])
      exact Follows.cons hevent (ih _ hstill)
  | silent held event trace last hrole _ ih =>
      have hevent : Allowed role earlier event := by
        rw [Allowed, hrole]
        trivial
      have hstill := hearlier.still event (by simp [hrole, Role.opensIt]) (by simp [hrole, Role.closesIt])
      exact Follows.cons hevent (ih _ hstill)

theorem Walk.orderly {last : Option H} {trace : List E} (h : Walk role none trace last) : Orderly role trace :=
  (h.follows [] tracks_nil).1

theorem Walk.shut {trace : List E} (h : Walk role none trace none) (handle : H) : Shut role handle trace :=
  (h.follows [] tracks_nil).2 handle

-- A handle is shut where it is opened.
theorem Orderly.shut {trace before after : List E} {event : E} (h : Orderly role trace)
    (htrace : trace = before ++ event :: after) (handle : H) (hopens : (role event).opensIt handle = true) :
    Shut role handle before := by
  have hallowed := h before event after htrace
  unfold Allowed at hallowed
  cases hrole : role event with
  | opens other =>
      rw [hrole] at hallowed hopens
      have hsame : other = handle := of_decide_eq_true hopens
      rwa [hsame] at hallowed
  | closes other => simp [hrole, Role.opensIt] at hopens
  | uses kind => simp [hrole, Role.opensIt] at hopens
  | silent => simp [hrole, Role.opensIt] at hopens

-- A handle that is shut in the end was closed once after each opening.
theorem Walk.closedOnce {trace : List E} (h : Walk role none trace none) : ClosedOnce role trace := by
  intro before event after handle htrace hrole
  have hsplit := List.takeWhile_append_dropWhile (p := fun later => !(role later).opensIt handle) (l := after)
  generalize hspan : after.takeWhile (fun later => !(role later).opensIt handle) = span at hsplit ⊢
  have hnone : opened role handle span = 0 := by
    rw [opened, List.countP_eq_zero, ← hspan]
    intro later hlater
    simpa using List.mem_takeWhile_imp hlater
  have hbefore : Shut role handle before := h.orderly.shut htrace handle (by simp [hrole, Role.opensIt])
  -- the span ends with the trace or where the handle is opened again
  have hafter : Shut role handle (before ++ event :: span) := by
    cases hrest : after.dropWhile (fun later => !(role later).opensIt handle) with
    | nil =>
        rw [hrest, List.append_nil] at hsplit
        rw [hsplit, ← htrace]
        exact h.shut handle
    | cons next rest =>
        have hopens := List.head_dropWhile_not (fun later => !(role later).opensIt handle) (l := after) (by simp [hrest])
        simp only [hrest, List.head_cons] at hopens
        rw [hrest] at hsplit
        exact h.orderly.shut (by simp [htrace, ← hsplit] : trace = _ ++ next :: rest) handle (by simpa using hopens)
  have hopened : opened role handle (before ++ event :: span) = opened role handle before + 1 := by
    rw [← List.singleton_append, ← List.append_assoc, opened, List.countP_append, ← opened, ← opened, hnone,
      opened_append_singleton, hrole]
    simp [Role.opensIt]
  have hclosed : closed role handle (before ++ event :: span) = closed role handle before + closed role handle span := by
    rw [← List.singleton_append, ← List.append_assoc, closed, List.countP_append, ← closed, ← closed,
      closed_append_singleton, hrole]
    simp [Role.closesIt]
  unfold Shut at hbefore hafter
  omega

end Tracks

end Library.Handles
