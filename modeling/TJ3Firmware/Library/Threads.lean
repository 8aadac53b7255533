import TJ3Firmware.Library.Interaction

namespace Library.Threads

open Library.Interaction

variable {Op Op' : Type} {Reply : Op → Type} {Reply' : Op' → Type} {ε ε' α β : Type}

section Reaches

-- The program can have made these calls so far.
inductive Reaches : Prog Op Reply ε α → List (Event Op Reply) → Prop
  | start (prog : Prog Op Reply ε α) : Reaches prog []
  | call (op : Op) (next : Reply op → Prog Op Reply ε α) (reply : Reply op) (trace : List (Event Op Reply))
      (rest : Reaches (next reply) trace) : Reaches (.call op next) (⟨op, reply⟩ :: trace)

-- Where every call can get a reply, the program can go on to its end.
theorem Reaches.exists_run [hreply : ∀ op, Nonempty (Reply op)] {prog : Prog Op Reply ε α}
    {trace : List (Event Op Reply)} (h : Reaches prog trace) : ∃ run : Run prog, trace <+: run.trace := by
  induction h with
  | start prog =>
      obtain ⟨run⟩ := prog.exists_run
      exact ⟨run, List.nil_prefix⟩
  | call op next reply trace _ ih =>
      obtain ⟨⟨rest, outcome, hruns⟩, hfront⟩ := ih
      exact ⟨⟨_, outcome, .call op next reply rest outcome hruns⟩, (List.prefix_cons_inj _).mpr hfront⟩

-- The program is still in its first half or has gone through it.
theorem reaches_bind (prog : Prog Op Reply ε α) (next : α → Prog Op Reply ε β) (trace : List (Event Op Reply))
    (h : Reaches (prog >>= next) trace) : Reaches prog trace ∨ ∃ before value after, trace = before ++ after ∧
      Runs prog before (.ok value) ∧ Reaches (next value) after := by
  induction prog generalizing trace with
  | ret value => exact Or.inr ⟨[], value, trace, rfl, .ret value, h⟩
  | fail error =>
      cases h
      exact Or.inl (.start _)
  | call op resume ih =>
      cases h with
      | start => exact Or.inl (.start _)
      | call _ _ reply rest hrest =>
          rcases ih reply rest hrest with hfirst | ⟨before, value, after, rfl, hfirst, hlast⟩
          · exact Or.inl (.call op resume reply rest hfirst)
          · exact Or.inr ⟨_ :: before, value, after, rfl, .call op resume reply before _ hfirst, hlast⟩

theorem Reaches.forall_event {prog : Prog Op Reply ε α} {trace : List (Event Op Reply)} (h : Reaches prog trace)
    (quiet : Op → Prop) (hquiet : CallsOnly quiet prog) : ∀ event ∈ trace, quiet event.op := by
  induction h with
  | start prog => exact List.forall_mem_nil _
  | call op next reply trace _ ih => exact List.forall_mem_cons.mpr ⟨hquiet.1, ih (hquiet.2 reply)⟩

theorem filterMap_quiet_append {F : Type} {part : Event Op Reply → Option F} (quiet : Op → Prop)
    {before after : List (Event Op Reply)} (hevents : ∀ event ∈ before, quiet event.op)
    (hpart : ∀ event : Event Op Reply, quiet event.op → part event = none) :
    (before ++ after).filterMap part = after.filterMap part := by
  have hnone := List.filterMap_eq_nil_iff.mpr fun event hevent => hpart event (hevents event hevent)
  rw [List.filterMap_append, hnone, List.nil_append]

-- Calls that do not show in this part of the trace can be skipped.
theorem Reaches.skip {F : Type} {part : Event Op Reply → Option F} (quiet : Op → Prop) {prog : Prog Op Reply ε α}
    {next : α → Prog Op Reply ε β} {trace : List (Event Op Reply)} (h : Reaches (prog >>= next) trace)
    (hquiet : CallsOnly quiet prog) (hpart : ∀ event : Event Op Reply, quiet event.op → part event = none) :
    trace.filterMap part = [] ∨ ∃ value after, trace.filterMap part = after.filterMap part ∧ Reaches (next value) after := by
  rcases reaches_bind prog next trace h with hfirst | ⟨before, value, after, rfl, hfirst, hlast⟩
  · have hevents := hfirst.forall_event quiet hquiet
    exact Or.inl (List.filterMap_eq_nil_iff.mpr fun event hevent => hpart event (hevents event hevent))
  · have hevents := forall_event_of_callsOnly quiet prog before _ hquiet hfirst
    exact Or.inr ⟨value, after, filterMap_quiet_append quiet hevents hpart, hlast⟩

theorem runs_skip {F : Type} {part : Event Op Reply → Option F} (quiet : Op → Prop) {prog : Prog Op Reply ε α}
    {next : α → Prog Op Reply ε β} {trace : List (Event Op Reply)} {result : β}
    (h : Runs (prog >>= next) trace (.ok result)) (hquiet : CallsOnly quiet prog)
    (hpart : ∀ event : Event Op Reply, quiet event.op → part event = none) :
    ∃ value after, trace.filterMap part = after.filterMap part ∧ Runs (next value) after (.ok result) := by
  obtain ⟨before, value, after, rfl, hfirst, hlast⟩ := (runs_bind_ok prog next trace result).mp h
  have hevents := forall_event_of_callsOnly quiet prog before _ hquiet hfirst
  exact ⟨value, after, filterMap_quiet_append quiet hevents hpart, hlast⟩

theorem reaches_of_runs {prog : Prog Op Reply ε α} {trace : List (Event Op Reply)} {outcome : Except ε α}
    (h : Runs prog trace outcome) : Reaches prog trace := by
  induction h with
  | ret value => exact .start _
  | fail error => exact .start _
  | call op next reply trace outcome _ ih => exact .call op next reply trace ih

-- What follows makes no calls.
theorem Reaches.of_bind {prog : Prog Op Reply ε α} {next : α → Prog Op Reply ε β} {trace : List (Event Op Reply)}
    (h : Reaches (prog >>= next) trace) (hnext : ∀ value, ∃ result, next value = pure result) : Reaches prog trace := by
  rcases reaches_bind prog next trace h with hfirst | ⟨before, value, after, rfl, hfirst, hlast⟩
  · exact hfirst
  · obtain ⟨result, hresult⟩ := hnext value
    rw [hresult] at hlast
    cases hlast
    rw [List.append_nil]
    exact reaches_of_runs hfirst

theorem runs_of_bind {prog : Prog Op Reply ε α} {next : α → Prog Op Reply ε β} {trace : List (Event Op Reply)}
    {result : β} (h : Runs (prog >>= next) trace (.ok result)) (hnext : ∀ value, ∃ result, next value = pure result) :
    ∃ value, Runs prog trace (.ok value) := by
  obtain ⟨before, value, after, rfl, hfirst, hlast⟩ := (runs_bind_ok prog next trace result).mp h
  obtain ⟨result', hresult⟩ := hnext value
  rw [hresult] at hlast
  obtain ⟨rfl, -⟩ := (runs_pure _ _ _).mp hlast
  rw [List.append_nil]
  exact ⟨value, hfirst⟩

theorem bind_assoc {γ : Type} (prog : Prog Op Reply ε α) (next : α → Prog Op Reply ε β) (last : β → Prog Op Reply ε γ) :
    (prog >>= next) >>= last = prog >>= fun value => next value >>= last := by
  induction prog with
  | ret value => rfl
  | fail error => rfl
  | call op resume ih => exact congrArg (Prog.call op) (funext ih)

end Reaches

section View

variable {σ τ : Type} {advance : σ → Event Op Reply → σ → Prop} {advance' : τ → Event Op' Reply' → τ → Prop}
  {first last : σ}

-- A part of the state that sees some of the events as its own, and may drift
-- at any time.
theorem path_view (view : σ → τ) (part : Event Op Reply → Option (Event Op' Reply')) (drift : τ → τ → Prop)
    (hrefl : ∀ state, drift state state)
    (htrans : ∀ state grown next, drift state grown → drift grown next → drift state next)
    (habsorb : ∀ state grown event next, drift state grown → advance' grown event next → advance' state event next)
    (hseen : ∀ state event next seen, part event = some seen → advance state event next →
      advance' (view state) seen (view next))
    (hother : ∀ state event next, part event = none → advance state event next → drift (view state) (view next))
    (trace : List (Event Op Reply)) (h : Path advance first trace last) :
    ∃ reached, Path advance' (view first) (trace.filterMap part) reached ∧ drift reached (view last) := by
  induction h with
  | nil state => exact ⟨view state, .nil _, hrefl _⟩
  | cons state middle last event trace step _ ih =>
      obtain ⟨reached, hpath, hdrift⟩ := ih
      cases hpart : part event with
      | some seen =>
          rw [List.filterMap_cons, hpart]
          exact ⟨reached, .cons _ _ _ _ _ (hseen state event middle seen hpart step) hpath, hdrift⟩
      | none =>
          rw [List.filterMap_cons, hpart]
          have hmiddle := hother state event middle hpart step
          -- the drift comes before the next event that is seen, or at the end
          cases hrest : trace.filterMap part with
          | nil =>
              rw [hrest] at hpath
              cases path_nil_iff.mp hpath
              exact ⟨view state, .nil _, htrans _ _ _ hmiddle hdrift⟩
          | cons seen more =>
              rw [hrest] at hpath
              obtain ⟨next, hnext, hmore⟩ := (path_cons_iff _ _).mp hpath
              exact ⟨reached, .cons _ _ _ _ _ (habsorb _ _ _ _ hmiddle hnext) hmore, hdrift⟩

end View

section Embed

-- A program as part of a thread: its calls, their replies and its errors are
-- among those of the thread.
def embed (call : Op → Op') (back : (op : Op) → Reply' (call op) → Reply op) (error : ε → ε') :
    Prog Op Reply ε α → Prog Op' Reply' ε' α
  | .ret value => .ret value
  | .fail failure => .fail (error failure)
  | .call op next => .call (call op) fun reply => embed call back error (next (back op reply))

variable {call : Op → Op'} {back : (op : Op) → Reply' (call op) → Reply op} {error : ε → ε'}

theorem lift_eq_embed (prog : Prog Op Reply ε α) : prog.lift call back = embed call back id prog := by
  induction prog with
  | ret value => rfl
  | fail failure => rfl
  | call op next ih => exact congrArg (Prog.call (call op)) (funext fun reply => ih (back op reply))

theorem callsOnly_embed (quiet : Op' → Prop) (hquiet : ∀ op, quiet (call op)) (prog : Prog Op Reply ε α) :
    CallsOnly quiet (embed call back error prog) := by
  induction prog with
  | ret value => trivial
  | fail failure => trivial
  | call op next ih => exact ⟨hquiet op, fun reply => ih (back op reply)⟩

theorem embed_bind (prog : Prog Op Reply ε α) (next : α → Prog Op Reply ε β) :
    embed call back error (prog >>= next) = embed call back error prog >>= fun value => embed call back error (next value) := by
  induction prog with
  | ret value => rfl
  | fail failure => rfl
  | call op resume ih => exact congrArg (Prog.call (call op)) (funext fun reply => ih (back op reply))

variable (part : Event Op' Reply' → Option (Event Op Reply))

-- What the program sees of the calls that the thread makes for it.
theorem reaches_of_embed (prog : Prog Op Reply ε α) (trace : List (Event Op' Reply'))
    (h : Reaches (embed call back error prog) trace)
    (hpart : ∀ op reply, part ⟨call op, reply⟩ = some ⟨op, back op reply⟩) : Reaches prog (trace.filterMap part) := by
  induction prog generalizing trace with
  | ret value =>
      cases h
      exact .start _
  | fail failure =>
      cases h
      exact .start _
  | call op next ih =>
      cases h with
      | start => exact .start _
      | call _ _ reply rest hrest =>
          rw [List.filterMap_cons, hpart op reply]
          exact .call op next (back op reply) _ (ih (back op reply) rest hrest)

theorem runs_of_embed (prog : Prog Op Reply ε α) (trace : List (Event Op' Reply')) (value : α)
    (h : Runs (embed call back error prog) trace (.ok value))
    (hpart : ∀ op reply, part ⟨call op, reply⟩ = some ⟨op, back op reply⟩) :
    Runs prog (trace.filterMap part) (.ok value) := by
  induction prog generalizing trace with
  | ret result =>
      cases h
      exact .ret _
  | fail failure => cases h
  | call op next ih =>
      cases h with
      | call _ _ reply rest _ hrest =>
          rw [List.filterMap_cons, hpart op reply]
          exact .call op next (back op reply) _ _ (ih (back op reply) rest hrest)

end Embed

section Interleaved

variable {E F : Type}

-- What two threads do as it happens. The second one is idle until an event of
-- the first one starts it.
inductive Interleaved (starts : E → Prop) : Prop → List E → List E → List E → Prop
  | done (started : Prop) : Interleaved starts started [] [] []
  | first (started : Prop) (event : E) (xs ys zs : List E)
      (rest : Interleaved starts (started ∨ starts event) xs ys zs) :
      Interleaved starts started (event :: xs) ys (event :: zs)
  | second (started : Prop) (event : E) (xs ys zs : List E) (hstarted : started)
      (rest : Interleaved starts started xs ys zs) : Interleaved starts started xs (event :: ys) (event :: zs)

variable {starts : E → Prop} {started : Prop} {xs ys zs : List E}

-- The first thread is alone up to the event that starts the other one.
theorem Interleaved.alone (before after : List E) (h : Interleaved starts started (before ++ after) ys zs)
    (hidle : ¬started) (hbefore : ∀ event ∈ before, ¬starts event) :
    ∃ rest later, zs = before ++ rest ∧ ¬later ∧ Interleaved starts later after ys rest := by
  induction before generalizing started zs with
  | nil => exact ⟨zs, started, rfl, hidle, h⟩
  | cons event before ih =>
      obtain ⟨hevent, hrest⟩ := List.forall_mem_cons.mp hbefore
      cases h with
      | first _ _ _ _ rest h =>
          obtain ⟨last, later, rfl, hlast⟩ := ih h (not_or.mpr ⟨hidle, hevent⟩) hrest
          exact ⟨last, later, rfl, hlast⟩
      | second _ _ _ _ _ hstarted => exact absurd hstarted hidle

-- A thread that is never started does nothing.
theorem Interleaved.idle (h : Interleaved starts started xs ys zs) (hidle : ¬started)
    (hxs : ∀ event ∈ xs, ¬starts event) : ys = [] ∧ zs = xs := by
  induction h with
  | done started => exact ⟨rfl, rfl⟩
  | first started event xs ys zs _ ih =>
      obtain ⟨hevent, hrest⟩ := List.forall_mem_cons.mp hxs
      obtain ⟨rfl, rfl⟩ := ih (not_or.mpr ⟨hidle, hevent⟩) hrest
      exact ⟨rfl, rfl⟩
  | second started event xs ys zs hstarted => exact absurd hstarted hidle

-- What only the second thread does comes in its order.
theorem Interleaved.filterMap_second (part : E → Option F) (h : Interleaved starts started xs ys zs)
    (hxs : xs.filterMap part = []) : zs.filterMap part = ys.filterMap part := by
  induction h with
  | done started => rfl
  | first started event xs ys zs _ ih =>
      rw [List.filterMap_eq_nil_iff, List.forall_mem_cons] at hxs
      rw [List.filterMap_cons, hxs.1, ih (List.filterMap_eq_nil_iff.mpr hxs.2)]
  | second started event xs ys zs _ _ ih => rw [List.filterMap_cons, List.filterMap_cons, ih hxs]

-- What only the first thread does comes in its order.
theorem Interleaved.filterMap_first (part : E → Option F) (h : Interleaved starts started xs ys zs)
    (hys : ys.filterMap part = []) : zs.filterMap part = xs.filterMap part := by
  induction h with
  | done started => rfl
  | first started event xs ys zs _ ih => rw [List.filterMap_cons, List.filterMap_cons, ih hys]
  | second started event xs ys zs _ _ ih =>
      rw [List.filterMap_eq_nil_iff, List.forall_mem_cons] at hys
      rw [List.filterMap_cons, hys.1, ih (List.filterMap_eq_nil_iff.mpr hys.2)]

-- The second thread can do everything at the end.
theorem interleaved_append (ys : List E) (h : started ∨ ∃ event ∈ xs, starts event) :
    Interleaved starts started xs ys (xs ++ ys) := by
  induction xs generalizing started with
  | nil =>
      have hstarted : started := h.resolve_right (by simp)
      induction ys with
      | nil => exact .done started
      | cons event ys ih => exact .second started event [] ys _ hstarted ih
  | cons event xs ih =>
      apply Interleaved.first
      apply ih
      rcases h with h | ⟨other, hmem, hother⟩
      · exact Or.inl (Or.inl h)
      · rcases List.mem_cons.mp hmem with rfl | hrest
        · exact Or.inl (Or.inr hother)
        · exact Or.inr ⟨other, hrest, hother⟩

end Interleaved

end Library.Threads
