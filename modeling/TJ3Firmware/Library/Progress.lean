import TJ3Firmware.Library.Interaction
import Mathlib.Order.Defs.Unbundled

namespace Library.Progress

open Library.Interaction

variable {Op Op' : Type} {Reply : Op → Type} {Reply' : Op' → Type} {ε α β σ σ' : Type}

-- The program returns, and the environment is within what it was at first.
def Returned (within : σ → σ → Prop) (first : σ) : Except ε α → σ → Prop
  | .ok _, last => within first last
  | .error _, _ => False

def Always (_ : σ) (_ : Op) : Prop := True

-- It does so whatever the environment replies.
def Progresses (advance : σ → Event Op Reply → σ → Prop) (within : σ → σ → Prop) (prog : Prog Op Reply ε α)
    (state : σ) : Prop := wp Always advance prog (Returned within state) state

variable {advance : σ → Event Op Reply → σ → Prop} {within : σ → σ → Prop} [IsPreorder σ within]

theorem returned_mono {first middle : σ} (h : within first middle) (outcome : Except ε α) (last : σ)
    (hreturned : Returned within middle outcome last) : Returned within first outcome last := by
  cases outcome with
  | ok value => exact trans_of within h hreturned
  | error error => exact hreturned

theorem progresses_pure (value : α) (state : σ) :
    Progresses advance within (pure value : Prog Op Reply ε α) state := refl_of within state

theorem progresses_bind (prog : Prog Op Reply ε α) (next : α → Prog Op Reply ε β) (state : σ)
    (h : Progresses advance within prog state)
    (hnext : ∀ value later, within state later → Progresses advance within (next value) later) :
    Progresses advance within (prog >>= next) state := by
  unfold Progresses
  rw [wp_bind]
  refine wp_mono prog _ _ ?_ state h
  rintro (error | value) later hreturned
  · exact hreturned
  · exact wp_mono _ _ _ (returned_mono hreturned) later (hnext value later hreturned)

theorem progresses_call (op : Op) (next : Reply op → Prog Op Reply ε α) (state : σ)
    (hwithin : ∀ reply later, advance state ⟨op, reply⟩ later → within state later)
    (hnext : ∀ reply later, advance state ⟨op, reply⟩ later → Progresses advance within (next reply) later) :
    Progresses advance within (Prog.perform op >>= next) state := by
  apply wp_call op next _ state trivial
  intro reply later step
  exact wp_mono _ _ _ (returned_mono (hwithin reply later step)) later (hnext reply later step)

omit [IsPreorder σ within] in
theorem Progresses.returns {prog : Prog Op Reply ε α} {first last : σ} (h : Progresses advance within prog first)
    (run : Run prog) (hpath : Path advance first run.trace last) : ∃ value, run.outcome = .ok value := by
  obtain ⟨trace, outcome, hruns⟩ := run
  have hreturned := wp_post prog _ first last trace outcome h hruns hpath
  cases outcome with
  | ok value => exact ⟨value, rfl⟩
  | error error => exact absurd hreturned id

-- A program that is part of another one, whose environment is seen through it.
theorem wp_lift {embed : Op → Op'} {back : (op : Op) → Reply' (embed op) → Reply op}
    (advance' : σ' → Event Op' Reply' → σ' → Prop) (view : σ' → σ) (kept : σ' → Prop)
    (hstep : ∀ state op reply later, kept state → advance' state ⟨embed op, reply⟩ later →
      advance (view state) ⟨op, back op reply⟩ (view later) ∧ kept later)
    (prog : Prog Op Reply ε α) (post : Except ε α → σ → Prop) (state : σ') (hkept : kept state)
    (h : wp Always advance prog post (view state)) :
    wp Always advance' (prog.lift embed back) (fun outcome later => post outcome (view later) ∧ kept later) state := by
  induction prog generalizing state with
  | ret value => exact ⟨h, hkept⟩
  | fail error => exact ⟨h, hkept⟩
  | call op next ih =>
      refine ⟨trivial, fun reply later step => ?_⟩
      obtain ⟨hadvance, hlater⟩ := hstep state op reply later hkept step
      exact ih (back op reply) later hlater (h.2 (back op reply) (view later) hadvance)

omit [IsPreorder σ within] in
theorem progresses_lift {embed : Op → Op'} {back : (op : Op) → Reply' (embed op) → Reply op}
    {advance' : σ' → Event Op' Reply' → σ' → Prop} {within' : σ' → σ' → Prop} [IsPreorder σ' within'] (view : σ' → σ)
    (hstep : ∀ current op reply later, advance' current ⟨embed op, reply⟩ later →
      advance (view current) ⟨op, back op reply⟩ (view later) ∧ within' current later)
    (prog : Prog Op Reply ε α) (state : σ') (h : Progresses advance within prog (view state)) :
    Progresses advance' within' (prog.lift embed back) state := by
  have hkept : ∀ current op reply later, within' state current → advance' current ⟨embed op, reply⟩ later →
      advance (view current) ⟨op, back op reply⟩ (view later) ∧ within' state later := by
    intro current op reply later hwithin step
    obtain ⟨hadvance, hlater⟩ := hstep current op reply later step
    exact ⟨hadvance, trans_of within' hwithin hlater⟩
  refine wp_mono _ _ _ ?_ state (wp_lift advance' view (within' state) hkept prog _ state (refl_of within' state) h)
  rintro (error | value) later ⟨hreturned, hwithin⟩
  · exact hreturned
  · exact hwithin

end Library.Progress
