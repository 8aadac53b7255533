import Mathlib.Data.List.Basic

namespace Library.Interaction

variable {Op : Type} {Reply : Op → Type} {ε α β σ : Type}

-- A program that calls its environment. What it does next depends on the
-- replies, whose type may differ from call to call.
inductive Prog (Op : Type) (Reply : Op → Type) (ε α : Type) where
  | ret (value : α)
  | fail (error : ε)
  | call (op : Op) (next : Reply op → Prog Op Reply ε α)

namespace Prog

protected def bind : Prog Op Reply ε α → (α → Prog Op Reply ε β) → Prog Op Reply ε β
  | .ret value, next => next value
  | .fail error, _ => .fail error
  | .call op resume, next => .call op fun reply => (resume reply).bind next

instance : Monad (Prog Op Reply ε) where
  pure := Prog.ret
  bind := Prog.bind

def perform (op : Op) : Prog Op Reply ε (Reply op) := .call op .ret

-- The program as part of one that makes other calls as well.
def lift {Op' : Type} {Reply' : Op' → Type} (embed : Op → Op') (back : (op : Op) → Reply' (embed op) → Reply op) :
    Prog Op Reply ε α → Prog Op' Reply' ε α
  | .ret value => .ret value
  | .fail error => .fail error
  | .call op next => .call (embed op) fun reply => (next (back op reply)).lift embed back

def ofExcept : Except ε α → Prog Op Reply ε α
  | .ok value => .ret value
  | .error error => .fail error

@[simp] theorem ofExcept_ok_bind (value : α) (next : α → Prog Op Reply ε β) :
    ofExcept (.ok value) >>= next = next value := rfl

end Prog

-- A call that was made, with the reply it got.
structure Event (Op : Type) (Reply : Op → Type) where
  op : Op
  reply : Reply op

-- The program can make these calls, get these replies, and end so.
inductive Runs : Prog Op Reply ε α → List (Event Op Reply) → Except ε α → Prop
  | ret (value : α) : Runs (.ret value) [] (.ok value)
  | fail (error : ε) : Runs (.fail error) [] (.error error)
  | call (op : Op) (next : Reply op → Prog Op Reply ε α) (reply : Reply op)
      (trace : List (Event Op Reply)) (outcome : Except ε α) (rest : Runs (next reply) trace outcome) :
      Runs (.call op next) (⟨op, reply⟩ :: trace) outcome

structure Run (prog : Prog Op Reply ε α) where
  trace : List (Event Op Reply)
  outcome : Except ε α
  runs : Runs prog trace outcome

-- The run in which each call gets a fixed reply.
def Prog.runWith (replies : (op : Op) → Reply op) : (prog : Prog Op Reply ε α) → Run prog
  | .ret value => ⟨[], .ok value, .ret value⟩
  | .fail error => ⟨[], .error error, .fail error⟩
  | .call op next =>
      let rest := (next (replies op)).runWith replies
      ⟨⟨op, replies op⟩ :: rest.trace, rest.outcome, .call op next _ _ _ rest.runs⟩

-- The run against a responder with a state of its own.
def Prog.play (respond : σ → (op : Op) → Reply op × σ) : (prog : Prog Op Reply ε α) → σ → Run prog
  | .ret value, _ => ⟨[], .ok value, .ret value⟩
  | .fail error, _ => ⟨[], .error error, .fail error⟩
  | .call op next, state =>
      let answer := respond state op
      let rest := (next answer.1).play respond answer.2
      ⟨⟨op, answer.1⟩ :: rest.trace, rest.outcome, .call op next _ _ _ rest.runs⟩

theorem event_runWith (replies : (op : Op) → Reply op) (prog : Prog Op Reply ε α) :
    ∀ event ∈ (prog.runWith replies).trace, event = ⟨event.op, replies event.op⟩ := by
  induction prog with
  | ret value => exact List.forall_mem_nil _
  | fail error => exact List.forall_mem_nil _
  | call op next ih => exact List.forall_mem_cons.mpr ⟨rfl, ih (replies op)⟩

theorem Prog.exists_run [hreply : ∀ op, Nonempty (Reply op)] (prog : Prog Op Reply ε α) : Nonempty (Run prog) :=
  ⟨prog.runWith fun op => (hreply op).some⟩

section Runs

@[simp] theorem runs_pure (value : α) (trace : List (Event Op Reply)) (outcome : Except ε α) :
    Runs (pure value : Prog Op Reply ε α) trace outcome ↔ trace = [] ∧ outcome = .ok value := by
  constructor
  · intro h
    cases h
    exact ⟨rfl, rfl⟩
  · rintro ⟨rfl, rfl⟩
    exact .ret value

@[simp] theorem runs_fail (error : ε) (trace : List (Event Op Reply)) (outcome : Except ε α) :
    Runs (.fail error : Prog Op Reply ε α) trace outcome ↔ trace = [] ∧ outcome = .error error := by
  constructor
  · intro h
    cases h
    exact ⟨rfl, rfl⟩
  · rintro ⟨rfl, rfl⟩
    exact .fail error

-- One call, then the rest of the program.
theorem runs_perform_bind (op : Op) (next : Reply op → Prog Op Reply ε α) (trace : List (Event Op Reply))
    (outcome : Except ε α) : Runs (Prog.perform op >>= next) trace outcome ↔
      ∃ reply rest, trace = ⟨op, reply⟩ :: rest ∧ Runs (next reply) rest outcome := by
  constructor
  · intro h
    cases h with
    | call _ _ reply rest _ hrest => exact ⟨reply, rest, rfl, hrest⟩
  · rintro ⟨reply, rest, rfl, hrest⟩
    exact .call op next reply rest outcome hrest

-- A run of a sequence stops with an error in its first half or goes through it.
theorem runs_bind (prog : Prog Op Reply ε α) (next : α → Prog Op Reply ε β) (trace : List (Event Op Reply))
    (outcome : Except ε β) : Runs (prog >>= next) trace outcome ↔
      (∃ error, outcome = .error error ∧ Runs prog trace (.error error)) ∨
      ∃ before value after, trace = before ++ after ∧ Runs prog before (.ok value) ∧
        Runs (next value) after outcome := by
  constructor
  · intro h
    induction prog generalizing trace with
    | ret value => exact Or.inr ⟨[], value, trace, rfl, .ret value, h⟩
    | fail error =>
        cases h
        exact Or.inl ⟨error, rfl, .fail error⟩
    | call op resume ih =>
        cases h with
        | call _ _ reply rest _ hrest =>
            rcases ih reply rest hrest with ⟨error, rfl, hfirst⟩ | ⟨before, value, after, rfl, hfirst, hlast⟩
            · exact Or.inl ⟨error, rfl, .call op resume reply rest _ hfirst⟩
            · exact Or.inr ⟨_ :: before, value, after, rfl, .call op resume reply before _ hfirst, hlast⟩
  · rintro (⟨error, rfl, hfirst⟩ | ⟨before, value, after, rfl, hfirst, hlast⟩)
    · generalize hfailed : (Except.error error : Except ε α) = failed at hfirst
      induction hfirst with
      | ret value => cases hfailed
      | fail error' =>
          cases hfailed
          exact .fail error
      | call op resume reply rest _ _ ih => exact .call op _ reply rest _ (ih hfailed)
    · generalize hreturned : (Except.ok value : Except ε α) = returned at hfirst
      induction hfirst with
      | ret value' =>
          cases hreturned
          exact hlast
      | fail error => cases hreturned
      | call op resume reply rest _ _ ih => exact .call op _ reply _ _ (ih hreturned)

-- A first half that never fails is always gone through.
theorem runs_bind_of_returns (prog : Prog Op Reply ε α) (next : α → Prog Op Reply ε β) (trace : List (Event Op Reply))
    (outcome : Except ε β) (hreturns : ∀ trace error, ¬Runs prog trace (.error error)) :
    Runs (prog >>= next) trace outcome ↔ ∃ before value after, trace = before ++ after ∧
      Runs prog before (.ok value) ∧ Runs (next value) after outcome := by
  rw [runs_bind]
  constructor
  · rintro (⟨error, -, hfirst⟩ | h)
    · exact absurd hfirst (hreturns trace error)
    · exact h
  · exact Or.inr

theorem runs_bind_ok (prog : Prog Op Reply ε α) (next : α → Prog Op Reply ε β) (trace : List (Event Op Reply))
    (result : β) : Runs (prog >>= next) trace (.ok result) ↔ ∃ before value after, trace = before ++ after ∧
      Runs prog before (.ok value) ∧ Runs (next value) after (.ok result) := by
  rw [runs_bind]
  constructor
  · rintro (⟨error, hfailed, -⟩ | h)
    · cases hfailed
    · exact h
  · exact Or.inr

end Runs

theorem exists_call (events : List (Event Op Reply)) (op : Op) (index : Nat)
    (h : (events.map Event.op)[index]? = some op) :
    ∃ event after, event.op = op ∧ events = events.take index ++ event :: after := by
  rw [List.getElem?_map, Option.map_eq_some_iff] at h
  obtain ⟨event, hget, hop⟩ := h
  obtain ⟨hindex, rfl⟩ := List.getElem?_eq_some_iff.mp hget
  refine ⟨events[index], events.drop (index + 1), hop, ?_⟩
  rw [← List.drop_eq_getElem_cons hindex, List.take_append_drop]

-- The states an environment goes through, event by event.
inductive Path (advance : σ → Event Op Reply → σ → Prop) : σ → List (Event Op Reply) → σ → Prop
  | nil (state : σ) : Path advance state [] state
  | cons (state next last : σ) (event : Event Op Reply) (trace : List (Event Op Reply))
      (step : advance state event next) (rest : Path advance next trace last) :
      Path advance state (event :: trace) last

section Path

variable {advance : σ → Event Op Reply → σ → Prop} {first last : σ}

@[simp] theorem path_nil_iff : Path advance first [] last ↔ last = first := by
  constructor
  · intro h
    cases h
    rfl
  · rintro rfl
    exact .nil last

theorem path_cons_iff (event : Event Op Reply) (trace : List (Event Op Reply)) :
    Path advance first (event :: trace) last ↔ ∃ next, advance first event next ∧ Path advance next trace last := by
  constructor
  · intro h
    cases h with
    | cons _ next _ _ _ step hrest => exact ⟨next, step, hrest⟩
  · rintro ⟨next, step, hrest⟩
    exact .cons _ _ _ _ _ step hrest

theorem path_append (before after : List (Event Op Reply)) :
    Path advance first (before ++ after) last ↔
      ∃ middle, Path advance first before middle ∧ Path advance middle after last := by
  induction before generalizing first with
  | nil =>
      constructor
      · intro h
        exact ⟨first, .nil first, h⟩
      · rintro ⟨middle, hnil, h⟩
        cases hnil
        exact h
  | cons event rest ih =>
      constructor
      · intro h
        cases h with
        | cons _ next _ _ _ step hrest =>
            obtain ⟨middle, hbefore, hafter⟩ := ih.mp hrest
            exact ⟨middle, .cons _ _ _ _ _ step hbefore, hafter⟩
      · rintro ⟨middle, hbefore, hafter⟩
        cases hbefore with
        | cons _ next _ _ _ step hrest =>
            exact .cons _ _ _ _ _ step (ih.mpr ⟨middle, hrest, hafter⟩)

theorem Path.mono {advance' : σ → Event Op Reply → σ → Prop} (trace : List (Event Op Reply))
    (hadvance : ∀ state event next, advance state event next → advance' state event next)
    (h : Path advance first trace last) : Path advance' first trace last := by
  induction h with
  | nil state => exact .nil state
  | cons state next last event trace step _ ih => exact .cons _ _ _ _ _ (hadvance state event next step) ih

-- An environment that takes each of the events in any state takes the trace.
theorem exists_path (first : σ) (trace : List (Event Op Reply))
    (h : ∀ event ∈ trace, ∀ state, ∃ next, advance state event next) : ∃ last, Path advance first trace last := by
  induction trace generalizing first with
  | nil => exact ⟨first, .nil first⟩
  | cons event rest ih =>
      obtain ⟨hevent, htrace⟩ := List.forall_mem_cons.mp h
      obtain ⟨next, hstep⟩ := hevent first
      obtain ⟨last, hrest⟩ := ih next htrace
      exact ⟨last, .cons _ _ _ _ _ hstep hrest⟩

-- An environment that is a partial function can be run.
theorem path_of_foldlM (step : σ → Event Op Reply → Option σ) (trace : List (Event Op Reply))
    (h : trace.foldlM step first = some last) :
    Path (fun state event next => step state event = some next) first trace last := by
  induction trace generalizing first with
  | nil =>
      cases h
      exact .nil _
  | cons event rest ih =>
      rw [List.foldlM_cons] at h
      obtain ⟨next, hstep, hrest⟩ := Option.bind_eq_some_iff.mp h
      exact .cons _ _ _ _ _ hstep (ih hrest)

-- The environment together with the events seen so far.
def recording (advance : σ → Event Op Reply → σ → Prop) (state : σ × List (Event Op Reply))
    (event : Event Op Reply) (next : σ × List (Event Op Reply)) : Prop :=
  advance state.1 event next.1 ∧ next.2 = state.2 ++ [event]

theorem Path.recorded (trace history : List (Event Op Reply)) (h : Path advance first trace last) :
    Path (recording advance) (first, history) trace (last, history ++ trace) := by
  induction h generalizing history with
  | nil state =>
      rw [List.append_nil]
      exact .nil _
  | cons state next last event rest step _ ih =>
      have hrest := ih (history ++ [event])
      rw [List.append_assoc, List.singleton_append] at hrest
      exact .cons _ _ _ _ _ ⟨step, rfl⟩ hrest

end Path

section Wp

variable (guard : σ → Op → Prop) (advance : σ → Event Op Reply → σ → Prop)

-- From the state, every call is made where the guard allows it, and the
-- program ends in a state that satisfies the postcondition.
def wp : Prog Op Reply ε α → (Except ε α → σ → Prop) → σ → Prop
  | .ret value, post, state => post (.ok value) state
  | .fail error, post, state => post (.error error) state
  | .call op next, post, state =>
      guard state op ∧ ∀ (reply : Reply op) (state' : σ), advance state ⟨op, reply⟩ state' →
        wp (next reply) post state'

variable {guard advance}

theorem wp_mono (prog : Prog Op Reply ε α) (post post' : Except ε α → σ → Prop)
    (hpost : ∀ outcome state, post outcome state → post' outcome state) (state : σ)
    (h : wp guard advance prog post state) : wp guard advance prog post' state := by
  induction prog generalizing state with
  | ret value => exact hpost _ _ h
  | fail error => exact hpost _ _ h
  | call op next ih => exact ⟨h.1, fun reply state' step => ih reply state' (h.2 reply state' step)⟩

-- What is left to show once the first half of a sequence has ended.
def andThen (guard : σ → Op → Prop) (advance : σ → Event Op Reply → σ → Prop)
    (next : α → Prog Op Reply ε β) (post : Except ε β → σ → Prop) : Except ε α → σ → Prop
  | .ok value, state => wp guard advance (next value) post state
  | .error error, state => post (.error error) state

@[simp] theorem andThen_ok (next : α → Prog Op Reply ε β) (post : Except ε β → σ → Prop) (value : α)
    (state : σ) : andThen guard advance next post (.ok value) state ↔ wp guard advance (next value) post state := Iff.rfl

@[simp] theorem wp_bind (prog : Prog Op Reply ε α) (next : α → Prog Op Reply ε β) (post : Except ε β → σ → Prop)
    (state : σ) : wp guard advance (prog >>= next) post state ↔
      wp guard advance prog (andThen guard advance next post) state := by
  induction prog generalizing state with
  | ret value => exact Iff.rfl
  | fail error => exact Iff.rfl
  | call op resume ih =>
      constructor
      · intro h
        exact ⟨h.1, fun reply state' step => (ih reply state').mp (h.2 reply state' step)⟩
      · intro h
        exact ⟨h.1, fun reply state' step => (ih reply state').mpr (h.2 reply state' step)⟩

theorem wp_call (op : Op) (next : Reply op → Prog Op Reply ε α) (post : Except ε α → σ → Prop) (state : σ)
    (hguard : guard state op) (h : ∀ (reply : Reply op) (state' : σ), advance state ⟨op, reply⟩ state' →
      wp guard advance (next reply) post state') :
    wp guard advance (Prog.perform op >>= next) post state := ⟨hguard, h⟩

-- A run ends in a state that satisfies the postcondition.
theorem wp_post (prog : Prog Op Reply ε α) (post : Except ε α → σ → Prop) (first last : σ)
    (trace : List (Event Op Reply)) (outcome : Except ε α) (h : wp guard advance prog post first)
    (hruns : Runs prog trace outcome) (hpath : Path advance first trace last) : post outcome last := by
  induction hruns generalizing first with
  | ret value =>
      cases hpath
      exact h
  | fail error =>
      cases hpath
      exact h
  | call op next reply trace outcome _ ih =>
      cases hpath with
      | cons _ state _ _ _ step hrest => exact ih state (h.2 reply state step) hrest

-- Each of its calls is made in a state where the guard allows it.
theorem wp_guard (prog : Prog Op Reply ε α) (post : Except ε α → σ → Prop) (first middle : σ)
    (trace before after : List (Event Op Reply)) (event : Event Op Reply) (outcome : Except ε α)
    (h : wp guard advance prog post first) (hruns : Runs prog trace outcome)
    (htrace : trace = before ++ event :: after) (hpath : Path advance first before middle) :
    guard middle event.op := by
  induction hruns generalizing first before with
  | ret value => exact absurd htrace.symm (by simp)
  | fail error => exact absurd htrace.symm (by simp)
  | call op next reply trace outcome _ ih =>
      cases hpath with
      | nil =>
          obtain ⟨rfl, -⟩ := List.cons.inj htrace
          exact h.1
      | cons _ state _ _ rest step hrest =>
          obtain ⟨rfl, htail⟩ := List.cons.inj htrace
          exact ih state rest (h.2 reply state step) htail hrest

-- Safe from a state when only the guard is of interest.
def Safe (guard : σ → Op → Prop) (advance : σ → Event Op Reply → σ → Prop) (prog : Prog Op Reply ε α)
    (state : σ) : Prop := wp guard advance prog (fun _ _ => True) state

theorem safe_call (op : Op) (next : Reply op → Prog Op Reply ε α) (state : σ) (hguard : guard state op)
    (h : ∀ (reply : Reply op) (state' : σ), advance state ⟨op, reply⟩ state' →
      Safe guard advance (next reply) state') :
    Safe guard advance (Prog.perform op >>= next) state := ⟨hguard, h⟩

theorem safe_pure (value : α) (state : σ) : Safe guard advance (pure value : Prog Op Reply ε α) state := trivial

theorem safe_bind (prog : Prog Op Reply ε α) (next : α → Prog Op Reply ε β) (state : σ)
    (h : Safe guard advance prog state) (hnext : ∀ value state', Safe guard advance (next value) state') :
    Safe guard advance (prog >>= next) state := by
  unfold Safe
  rw [wp_bind]
  refine wp_mono prog _ _ ?_ state h
  rintro (error | value) state' -
  · trivial
  · exact hnext value state'

end Wp

section Quiet

variable {guard : σ → Op → Prop} {advance : σ → Event Op Reply → σ → Prop}

-- The program makes no calls but these.
def CallsOnly (quiet : Op → Prop) : Prog Op Reply ε α → Prop
  | .ret _ => True
  | .fail _ => True
  | .call op next => quiet op ∧ ∀ reply, CallsOnly quiet (next reply)

theorem callsOnly_bind (quiet : Op → Prop) (prog : Prog Op Reply ε α) (next : α → Prog Op Reply ε β)
    (h : CallsOnly quiet prog) (hnext : ∀ value, CallsOnly quiet (next value)) :
    CallsOnly quiet (prog >>= next) := by
  induction prog with
  | ret value => exact hnext value
  | fail error => trivial
  | call op resume ih => exact ⟨h.1, fun reply => ih reply (h.2 reply)⟩

@[simp] theorem callsOnly_pure (quiet : Op → Prop) (value : α) :
    CallsOnly quiet (pure value : Prog Op Reply ε α) := trivial

@[simp] theorem callsOnly_perform (quiet : Op → Prop) (op : Op) :
    CallsOnly quiet (Prog.perform op : Prog Op Reply ε (Reply op)) ↔ quiet op := and_iff_left fun _ => trivial

@[simp] theorem callsOnly_perform_bind (quiet : Op → Prop) (op : Op) (next : Reply op → Prog Op Reply ε α) :
    CallsOnly quiet (Prog.perform op >>= next) ↔ quiet op ∧ ∀ reply, CallsOnly quiet (next reply) := Iff.rfl

@[simp] theorem callsOnly_ite (quiet : Op → Prop) (condition : Prop) [Decidable condition]
    (first second : Prog Op Reply ε α) : CallsOnly quiet (if condition then first else second) ↔
      if condition then CallsOnly quiet first else CallsOnly quiet second := by
  split <;> exact Iff.rfl

@[simp] theorem callsOnly_ofExcept (quiet : Op → Prop) (outcome : Except ε α) :
    CallsOnly quiet (Prog.ofExcept outcome : Prog Op Reply ε α) := by
  cases outcome <;> trivial

theorem forall_event_of_callsOnly (quiet : Op → Prop) (prog : Prog Op Reply ε α) (trace : List (Event Op Reply))
    (outcome : Except ε α) (h : CallsOnly quiet prog) (hruns : Runs prog trace outcome) :
    ∀ event ∈ trace, quiet event.op := by
  induction hruns with
  | ret value => exact List.forall_mem_nil _
  | fail error => exact List.forall_mem_nil _
  | call op next reply trace outcome _ ih => exact List.forall_mem_cons.mpr ⟨h.1, ih (h.2 reply)⟩

-- Calls that are allowed in every state of a set and do not leave it.
theorem wp_of_callsOnly (quiet : Op → Prop) (invariant : σ → Prop)
    (hguard : ∀ state op, invariant state → quiet op → guard state op)
    (hstep : ∀ state (event : Event Op Reply) state', invariant state → quiet event.op →
      advance state event state' → invariant state')
    (prog : Prog Op Reply ε α) (h : CallsOnly quiet prog) (state : σ) (hstate : invariant state) :
    wp guard advance prog (fun _ state' => invariant state') state := by
  induction prog generalizing state with
  | ret value => exact hstate
  | fail error => exact hstate
  | call op next ih =>
      refine ⟨hguard state op hstate h.1, ?_⟩
      intro reply state' step
      exact ih reply (h.2 reply) state' (hstep state ⟨op, reply⟩ state' hstate h.1 step)

theorem safe_of_callsOnly (quiet : Op → Prop) (hguard : ∀ state op, quiet op → guard state op)
    (prog : Prog Op Reply ε α) (h : CallsOnly quiet prog) (state : σ) : Safe guard advance prog state :=
  wp_of_callsOnly quiet (fun _ => True) (fun state op _ => hguard state op) (fun _ _ _ _ _ _ => trivial) prog h state
    trivial

-- Calls that are allowed in this state and stay in it can be skipped.
theorem safe_skip (quiet : Op → Prop) (prog : Prog Op Reply ε α) (next : α → Prog Op Reply ε β) (state : σ)
    (hguard : ∀ op, quiet op → guard state op)
    (hstay : ∀ (event : Event Op Reply) state', quiet event.op → advance state event state' → state' = state)
    (h : CallsOnly quiet prog) (hnext : ∀ value, Safe guard advance (next value) state) :
    Safe guard advance (prog >>= next) state := by
  have hskip : wp guard advance prog (fun _ state' => state' = state) state := by
    refine wp_of_callsOnly quiet (· = state) ?_ ?_ prog h state rfl
    · rintro _ op rfl hquiet
      exact hguard op hquiet
    · rintro _ event state' rfl hquiet step
      exact hstay event state' hquiet step
  unfold Safe
  rw [wp_bind]
  refine wp_mono prog _ _ ?_ state hskip
  rintro (error | value) _ rfl
  · trivial
  · exact hnext value

theorem callsOnly_lift {Op' : Type} {Reply' : Op' → Type} (embed : Op → Op')
    (back : (op : Op) → Reply' (embed op) → Reply op) (quiet : Op' → Prop) (hquiet : ∀ op, quiet (embed op))
    (prog : Prog Op Reply ε α) : CallsOnly quiet (prog.lift embed back) := by
  induction prog with
  | ret value => trivial
  | fail error => trivial
  | call op next ih => exact ⟨hquiet op, fun reply => ih (back op reply)⟩

theorem callsOnly_true (prog : Prog Op Reply ε α) : CallsOnly (fun _ => True) prog := by
  induction prog with
  | ret value => trivial
  | fail error => trivial
  | call op next ih => exact ⟨trivial, ih⟩

end Quiet

section Emits

variable {Out : Type} {output : Event Op Reply → Option Out}

-- Whatever the environment replies, the program outputs a part of this from the
-- front, and all of it when it returns.
def Emits (output : Event Op Reply → Option Out) (prog : Prog Op Reply ε α) (outputs : List Out) : Prop :=
  ∀ trace outcome, Runs prog trace outcome →
    trace.filterMap output <+: outputs ∧ ∀ value, outcome = .ok value → trace.filterMap output = outputs

theorem emits_pure (value : α) : Emits output (pure value : Prog Op Reply ε α) [] := by
  intro trace outcome h
  obtain ⟨rfl, -⟩ := (runs_pure _ _ _).mp h
  exact ⟨List.nil_prefix, fun _ _ => rfl⟩

theorem emits_perform (op : Op) (out : Out) (h : ∀ reply, output ⟨op, reply⟩ = some out) :
    Emits output (Prog.perform op : Prog Op Reply ε (Reply op)) [out] := by
  intro trace outcome hruns
  cases hruns with
  | call _ _ reply rest _ hrest =>
      obtain ⟨rfl, -⟩ := (runs_pure _ _ _).mp hrest
      have hout : List.filterMap output [⟨op, reply⟩] = [out] := by simp [h]
      rw [hout]
      exact ⟨List.prefix_rfl, fun _ _ => rfl⟩

theorem emits_bind (prog : Prog Op Reply ε α) (next : α → Prog Op Reply ε β) (first second : List Out)
    (h : Emits output prog first) (hnext : ∀ value, Emits output (next value) second) :
    Emits output (prog >>= next) (first ++ second) := by
  intro trace outcome hruns
  rcases (runs_bind _ _ _ _).mp hruns with ⟨error, rfl, hfailed⟩ | ⟨before, value, after, rfl, hfirst, hlast⟩
  · have hfront := (h trace _ hfailed).1
    exact ⟨hfront.trans (List.prefix_append first second), fun value hvalue => by cases hvalue⟩
  · have hbefore := (h before _ hfirst).2 value rfl
    obtain ⟨hafter, hreturned⟩ := hnext value after outcome hlast
    rw [List.filterMap_append, hbefore]
    refine ⟨(List.prefix_append_right_inj first).mpr hafter, ?_⟩
    intro result hresult
    rw [hreturned result hresult]

theorem emits_of_callsOnly (quiet : Op → Prop) (prog : Prog Op Reply ε α) (h : CallsOnly quiet prog)
    (hquiet : ∀ event : Event Op Reply, quiet event.op → output event = none) : Emits output prog [] := by
  intro trace outcome hruns
  have hevents := forall_event_of_callsOnly quiet prog trace outcome h hruns
  have hnone : trace.filterMap output = [] :=
    List.filterMap_eq_nil_iff.mpr fun event hevent => hquiet event (hevents event hevent)
  rw [hnone]
  exact ⟨List.prefix_rfl, fun _ _ => rfl⟩

theorem emits_quiet_bind (quiet : Op → Prop) (prog : Prog Op Reply ε α) (next : α → Prog Op Reply ε β)
    (outputs : List Out) (h : CallsOnly quiet prog) (hnext : ∀ value, Emits output (next value) outputs)
    (hquiet : ∀ event : Event Op Reply, quiet event.op → output event = none) :
    Emits output (prog >>= next) outputs :=
  emits_bind prog next [] outputs (emits_of_callsOnly quiet prog h hquiet) hnext

theorem emits_bind_quiet (quiet : Op → Prop) (prog : Prog Op Reply ε α) (next : α → Prog Op Reply ε β)
    (outputs : List Out) (h : Emits output prog outputs) (hnext : ∀ value, CallsOnly quiet (next value))
    (hquiet : ∀ event : Event Op Reply, quiet event.op → output event = none) :
    Emits output (prog >>= next) outputs := by
  have hbind := emits_bind prog next outputs [] h fun value => emits_of_callsOnly quiet _ (hnext value) hquiet
  rw [List.append_nil] at hbind
  exact hbind

end Emits

section Returns

-- Whatever the environment replies, the program ends without an error and
-- with a value of this kind.
def Returns : Prog Op Reply ε α → (α → Prop) → Prop
  | .ret value, post => post value
  | .fail _, _ => False
  | .call _ next, post => ∀ reply, Returns (next reply) post

theorem returns_mono (prog : Prog Op Reply ε α) (post post' : α → Prop) (hpost : ∀ value, post value → post' value)
    (h : Returns prog post) : Returns prog post' := by
  induction prog with
  | ret value => exact hpost value h
  | fail error => exact h
  | call op next ih => exact fun reply => ih reply (h reply)

@[simp] theorem returns_bind (prog : Prog Op Reply ε α) (next : α → Prog Op Reply ε β) (post : β → Prop) :
    Returns (prog >>= next) post ↔ Returns prog fun value => Returns (next value) post := by
  induction prog with
  | ret value => exact Iff.rfl
  | fail error => exact Iff.rfl
  | call op resume ih => exact forall_congr' ih

@[simp] theorem returns_pure (value : α) (post : α → Prop) :
    Returns (pure value : Prog Op Reply ε α) post ↔ post value := Iff.rfl

@[simp] theorem returns_perform (op : Op) (post : Reply op → Prop) :
    Returns (Prog.perform op : Prog Op Reply ε (Reply op)) post ↔ ∀ reply, post reply := Iff.rfl

@[simp] theorem returns_ite (condition : Prop) [Decidable condition] (first second : Prog Op Reply ε α)
    (post : α → Prop) : Returns (if condition then first else second) post ↔
      if condition then Returns first post else Returns second post := by
  split <;> exact Iff.rfl

@[simp] theorem returns_ofExcept_ok (value : α) (post : α → Prop) :
    Returns (Prog.ofExcept (.ok value) : Prog Op Reply ε α) post ↔ post value := Iff.rfl

theorem returns_sound (prog : Prog Op Reply ε α) (post : α → Prop) (h : Returns prog post) (run : Run prog) :
    ∃ value, run.outcome = .ok value ∧ post value := by
  obtain ⟨trace, outcome, hruns⟩ := run
  induction hruns with
  | ret value => exact ⟨value, rfl, h⟩
  | fail error => exact absurd h id
  | call op next reply trace outcome _ ih => exact ih (h reply)

theorem not_runs_error_of_returns (prog : Prog Op Reply ε α) (post : α → Prop) (h : Returns prog post)
    (trace : List (Event Op Reply)) (error : ε) : ¬Runs prog trace (.error error) := by
  intro hruns
  obtain ⟨value, houtcome, -⟩ := returns_sound prog post h ⟨trace, _, hruns⟩
  cases houtcome

end Returns

end Library.Interaction
