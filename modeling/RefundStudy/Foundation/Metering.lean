/-
  How many calls of a kind a program makes, and what it learns from the replies.
-/
import RefundStudy.Foundation.System
import Mathlib.Data.List.Induction

set_option autoImplicit false

namespace RefundStudy.Foundation

variable {Call : Type} {Reply : Call → Type} {W α β : Type}

theorem Safe.lessInterference {answers : Answers Call Reply W} {R R' : Interference W}
    {G : W → W → Prop} {Q : α → W → Prop} {p : Program Call Reply α} {w : W}
    (hsafe : Safe answers R G Q p w) (hless : ∀ w w', R'.rel w w' → R.rel w w') :
    Safe answers R' G Q p w := by
  induction p generalizing w with
  | ret value => exact fun w' hrel => hsafe w' (hless _ _ hrel)
  | call request next ih =>
    intro w₁ h₁ reply w₂ hans
    obtain ⟨hguar, hnext⟩ := hsafe w₁ (hless _ _ h₁) reply w₂ hans
    exact ⟨hguar, ih reply hnext⟩

/-! ## Meters -/

structure Meter (Call : Type) where
  counts : Call → Bool
  resets : Call → Bool

def Meter.tick (meter : Meter Call) (reading : Nat) (request : Call) : Nat :=
  if meter.resets request then 0
  else if meter.counts request then reading + 1
  else reading

section Metered

variable (meter : Meter Call) {answers : Answers Call Reply W} {R : Interference W}
  {G : W → W → Prop} {Q : α → W → Prop} {p : Program Call Reply α} {w : W}

def Answers.metered (answers : Answers Call Reply W) : Answers Call Reply (W × Nat) :=
  fun request w reply w' => answers request w.1 reply w'.1 ∧ w'.2 = meter.tick w.2 request

/-- Nobody else touches the reading. -/
def Interference.metered (R : Interference W) : Interference (W × Nat) where
  rel := fun w w' => R.rel w.1 w'.1 ∧ w'.2 = w.2
  refl := fun w => ⟨R.refl w.1, rfl⟩
  trans := fun h₁ h₂ => ⟨R.trans h₁.1 h₂.1, h₂.2.trans h₁.2⟩

theorem Safe.metered (hsafe : Safe answers R G Q p w) (reading : Nat) :
    Safe (answers.metered meter) R.metered (fun v v' => G v.1 v'.1) (fun value v => Q value v.1)
      p (w, reading) := by
  induction p generalizing w reading with
  | ret value => exact fun v hrel => hsafe v.1 hrel.1
  | call request next ih =>
    intro v₁ h₁ reply v₂ hans
    obtain ⟨hguar, hnext⟩ := hsafe v₁.1 h₁.1 reply v₂.1 hans.1
    exact ⟨hguar, ih reply hnext v₂.2⟩

/-- Whatever holds of a metered program without its reading holds of the program. -/
theorem Safe.unmetered {G' : W × Nat → W × Nat → Prop} {Q' : α → W × Nat → Prop} {reading : Nat}
    (hsafe : Safe (answers.metered meter) R.metered G' Q' p (w, reading))
    (hG : ∀ v v', G' v v' → G v.1 v'.1) (hQ : ∀ value v, Q' value v → Q value v.1) :
    Safe answers R G Q p w := by
  induction p generalizing w reading with
  | ret value => exact fun w' hrel => hQ value (w', reading) (hsafe (w', reading) ⟨hrel, rfl⟩)
  | call request next ih =>
    intro w₁ h₁ reply w₂ hans
    obtain ⟨hguar, hnext⟩ := hsafe (w₁, reading) ⟨h₁, rfl⟩ reply
      (w₂, meter.tick reading request) ⟨hans, rfl⟩
    exact ⟨hG _ _ hguar, ih reply hnext⟩

end Metered

/-! ## Runs with their calls -/

section Runs

variable {ι : Type} [DecidableEq ι] {answers : ι → Answers Call Reply W}
  {G : ι → W → W → Prop} {Q : ι → α → W → Prop}

/-- A run of a system, with the calls it made in their order. -/
inductive Runs (answers : ι → Answers Call Reply W) (init : Config ι Call Reply W α) :
    List (ι × Call) → Config ι Call Reply W α → Prop where
  | nil : Runs answers init [] init
  | snoc {calls : List (ι × Call)} {cfg : Config ι Call Reply W α}
      (hrun : Runs answers init calls cfg) (i : ι) {request : Call}
      {next : Reply request → Program Call Reply α} {reply : Reply request} {w' : W}
      (hprogram : cfg.programs i = .call request next)
      (hanswer : answers i request cfg.world reply w') :
      Runs answers init (calls ++ [(i, request)])
        ⟨w', Function.update cfg.programs i (next reply)⟩

variable {init cfg : Config ι Call Reply W α}

theorem Runs.reachable {calls : List (ι × Call)} (hrun : Runs answers init calls cfg) :
    Reachable answers init cfg := by
  induction hrun with
  | nil => exact .refl
  | snoc _ i hprogram hanswer ih => exact ih.tail (.mk i hprogram hanswer)

theorem Reachable.runs (hreach : Reachable answers init cfg) :
    ∃ calls, Runs answers init calls cfg := by
  induction hreach with
  | refl => exact ⟨[], .nil⟩
  | tail _ hlast ih =>
    obtain ⟨calls, hrun⟩ := ih
    cases hlast with
    | mk i hprogram hanswer => exact ⟨_, hrun.snoc i hprogram hanswer⟩

theorem Runs.front {front back : List (ι × Call)} (hrun : Runs answers init (front ++ back) cfg) :
    ∃ middle, Runs answers init front middle := by
  induction back using List.reverseRecOn generalizing cfg with
  | nil =>
    rw [List.append_nil] at hrun
    exact ⟨cfg, hrun⟩
  | append_singleton back last ih =>
    generalize hcalls : front ++ (back ++ [last]) = calls at hrun
    cases hrun with
    | nil => simp at hcalls
    | snoc hrun i =>
      rw [← List.append_assoc] at hcalls
      obtain ⟨rfl, -⟩ := List.append_inj' hcalls rfl
      exact ih hrun

def Meter.reading (meter : Meter Call) (i : ι) (calls : List (ι × Call)) : Nat :=
  calls.foldl (fun reading call =>
    if call.1 = i then meter.tick reading call.2 else reading) 0

theorem Meter.reading_snoc (meter : Meter Call) (i j : ι) (calls : List (ι × Call))
    (request : Call) : meter.reading i (calls ++ [(j, request)]) =
      if j = i then meter.tick (meter.reading i calls) request else meter.reading i calls := by
  simp [Meter.reading]

def Meter.counted (meter : Meter Call) (i : ι) (calls : List (ι × Call)) : Nat :=
  calls.countP fun call => decide (call.1 = i) && meter.counts call.2

theorem Meter.counted_le_reading (meter : Meter Call) (i : ι) (before between : List (ι × Call))
    (hbetween : ∀ call ∈ between, call.1 = i → meter.resets call.2 = false) :
    meter.counted i between ≤ meter.reading i (before ++ between) := by
  induction between using List.reverseRecOn with
  | nil => simp [Meter.counted]
  | append_singleton between last ih =>
    obtain ⟨j, request⟩ := last
    have hle := ih fun call hcall => hbetween call (List.mem_append_left _ hcall)
    rw [← List.append_assoc, Meter.reading_snoc, Meter.counted, List.countP_append]
    change meter.counted i between + _ ≤ _
    by_cases hj : j = i
    · have hreset := hbetween (j, request) (by simp) hj
      rw [if_pos hj, Meter.tick, hreset, if_neg (by simp)]
      cases hcounts : meter.counts request with
      | true => simpa [hj, hcounts] using hle
      | false => simpa [hj, hcounts] using hle
    · rw [if_neg hj]
      simpa [hj] using hle

/-- In a run, what a process still has to do is safe with its reading, and the reading keeps
whatever bound the guarantee states. -/
theorem Runs.metered {meter : Meter Call} {i : ι} {limit : Nat} {G' : W × Nat → W × Nat → Prop}
    {Q' : α → W × Nat → Prop} {calls : List (ι × Call)} (hrun : Runs answers init calls cfg)
    (hinit : AllSafe answers G Q init)
    (hmetered : Safe ((answers i).metered meter) (others G i).metered G' Q'
      (init.programs i) (init.world, 0)) (hlimit : ∀ v v', G' v v' → v'.2 ≤ limit) :
    Safe ((answers i).metered meter) (others G i).metered G' Q'
      (cfg.programs i) (cfg.world, meter.reading i calls) ∧ meter.reading i calls ≤ limit := by
  induction hrun with
  | nil => exact ⟨hmetered, Nat.zero_le limit⟩
  | @snoc calls cfg hrun j request next reply w' hprogram hanswer ih =>
    obtain ⟨hsafe, hle⟩ := ih
    rw [Meter.reading_snoc]
    by_cases hj : j = i
    · subst hj
      rw [hprogram] at hsafe
      obtain ⟨hguar, hnext⟩ := hsafe _ ((others G j).metered.refl _) reply
        (w', meter.tick (meter.reading j calls) request) ⟨hanswer, rfl⟩
      rw [if_pos rfl]
      exact ⟨by simpa using hnext, hlimit _ _ hguar⟩
    · -- a step of another process is interference
      have hother := Reachable.safe hrun.reachable hinit j
      rw [hprogram] at hother
      obtain ⟨hguar, -⟩ := hother _ ((others G j).refl _) reply w' hanswer
      have hrel : (others G i).metered.rel (cfg.world, meter.reading i calls)
          (w', meter.reading i calls) :=
        ⟨Relation.ReflTransGen.single ⟨j, hj, hguar⟩, rfl⟩
      rw [if_neg hj]
      refine ⟨?_, hle⟩
      have hkeep := hsafe.interfere hrel
      simpa [Function.update_of_ne (Ne.symm hj)] using hkeep

/-- Between two resets a process makes only so many counted calls. -/
theorem Runs.counted_le {meter : Meter Call} {i : ι} {limit : Nat} {G' : W × Nat → W × Nat → Prop}
    {Q' : α → W × Nat → Prop} {before between after : List (ι × Call)}
    (hrun : Runs answers init (before ++ between ++ after) cfg) (hinit : AllSafe answers G Q init)
    (hmetered : Safe ((answers i).metered meter) (others G i).metered G' Q'
      (init.programs i) (init.world, 0)) (hlimit : ∀ v v', G' v v' → v'.2 ≤ limit)
    (hbetween : ∀ call ∈ between, call.1 = i → meter.resets call.2 = false) :
    meter.counted i between ≤ limit := by
  obtain ⟨middle, hfront⟩ := hrun.front
  obtain ⟨-, hle⟩ := hfront.metered hinit hmetered hlimit
  exact Nat.le_trans (meter.counted_le_reading i before between hbetween) hle

end Runs

/-! ## Views -/

section Views

variable {S ε : Type} {possible : S → (request : Call) → Reply request → Prop}
  {learns : S → (request : Call) → Reply request → S → Prop}

/-- Whatever possible reply a call gets, the view can move on, and `Q` holds of the result in
the last view. -/
def Tracks (possible : S → (request : Call) → Reply request → Prop)
    (learns : S → (request : Call) → Reply request → S → Prop) (Q : α → S → Prop) :
    Program Call Reply α → S → Prop
  | .ret value, s => Q value s
  | .call request next, s => ∀ reply, possible s request reply →
      ∃ s', learns s request reply s' ∧ Tracks possible learns Q (next reply) s'

namespace Tracks

theorem weaken {p : Program Call Reply α} {s : S} {Q Q' : α → S → Prop}
    (h : Tracks possible learns Q p s) (hQ : ∀ value s, Q value s → Q' value s) :
    Tracks possible learns Q' p s := by
  induction p generalizing s with
  | ret value => exact hQ value s h
  | call request next ih =>
    intro reply hpossible
    obtain ⟨s', hlearns, hnext⟩ := h reply hpossible
    exact ⟨s', hlearns, ih reply hnext⟩

theorem bind {p : Program Call Reply α} {rest : α → Program Call Reply β} {s : S}
    {Q : α → S → Prop} {Q₂ : β → S → Prop} (hfirst : Tracks possible learns Q p s)
    (hrest : ∀ value s, Q value s → Tracks possible learns Q₂ (rest value) s) :
    Tracks possible learns Q₂ (p >>= rest) s := by
  induction p generalizing s with
  | ret value => exact hrest value s hfirst
  | call request next ih =>
    intro reply hpossible
    obtain ⟨s', hlearns, hnext⟩ := hfirst reply hpossible
    exact ⟨s', hlearns, ih reply hnext⟩

end Tracks

/-- A postcondition of the returned values, and which errors may be thrown. -/
def Ends (Q : α → S → Prop) (allowed : ε → Prop) : Except ε α → S → Prop
  | .ok value, s => Q value s
  | .error e, _ => allowed e

/-- `Tracks` for a program that may throw. -/
abbrev TracksTo (possible : S → (request : Call) → Reply request → Prop)
    (learns : S → (request : Call) → Reply request → S → Prop) (allowed : ε → Prop)
    (Q : α → S → Prop) (p : ExceptT ε (Program Call Reply) α) (s : S) : Prop :=
  Tracks possible learns (Ends Q allowed) p.run s

namespace TracksTo

variable {allowed : ε → Prop} {Q : α → S → Prop} {Q₂ : β → S → Prop} {s : S}

theorem pure {value : α} (hQ : Q value s) :
    TracksTo possible learns allowed Q
      (Pure.pure value : ExceptT ε (Program Call Reply) α) s := hQ

theorem throw {error : ε} (hallowed : allowed error) :
    TracksTo possible learns allowed Q
      (throwThe ε error : ExceptT ε (Program Call Reply) α) s := hallowed

theorem weaken {Q' : α → S → Prop} {p : ExceptT ε (Program Call Reply) α}
    (h : TracksTo possible learns allowed Q p s) (hQ : ∀ value s, Q value s → Q' value s) :
    TracksTo possible learns allowed Q' p s := by
  refine Tracks.weaken h fun result s' hresult => ?_
  cases result with
  | ok value => exact hQ value s' hresult
  | error e => exact hresult

theorem bind {p : ExceptT ε (Program Call Reply) α}
    {rest : α → ExceptT ε (Program Call Reply) β}
    (hfirst : TracksTo possible learns allowed Q p s)
    (hrest : ∀ value s, Q value s → TracksTo possible learns allowed Q₂ (rest value) s) :
    TracksTo possible learns allowed Q₂ (p >>= rest) s := by
  refine Tracks.bind hfirst fun result s' hresult => ?_
  cases result with
  | ok value => exact hrest value s' hresult
  | error e => exact hresult

theorem call {request : Call} {rest : Reply request → ExceptT ε (Program Call Reply) α}
    (h : ∀ reply, possible s request reply →
      ∃ s', learns s request reply s' ∧ TracksTo possible learns allowed Q (rest reply) s') :
    TracksTo possible learns allowed Q (ExceptT.lift (Program.perform request) >>= rest) s := h

end TracksTo

/-- What the text of a safe program says about its view holds in every run. -/
theorem Safe.tracks {answers : Answers Call Reply W} {R : Interference W}
    {G K : W → W → Prop} {Q : α → W → Prop} {Q₂ : α → S → Prop} {I : S → W → Prop}
    {p : Program Call Reply α} {w : W} {s : S}
    (hsafe : Safe answers R G Q p w) (htracks : Tracks possible learns Q₂ p s)
    (hR : ∀ s w w', R.rel w w' → I s w → I s w')
    (hstep : ∀ s w request reply w', I s w → answers request w reply w' → G w w' →
      possible s request reply ∧ ∀ s', learns s request reply s' → K w w' ∧ I s' w')
    (hI : I s w) :
    Safe answers R (fun w w' => G w w' ∧ K w w')
      (fun value w => Q value w ∧ ∃ s, Q₂ value s ∧ I s w) p w := by
  induction p generalizing w s with
  | ret value => exact fun w' hrel => ⟨hsafe w' hrel, s, htracks, hR s _ _ hrel hI⟩
  | call request next ih =>
    intro w₁ h₁ reply w₂ hans
    obtain ⟨hguar, hnext⟩ := hsafe w₁ h₁ reply w₂ hans
    obtain ⟨hpossible, hlearned⟩ := hstep s w₁ request reply w₂ (hR s _ _ h₁ hI) hans hguar
    obtain ⟨s', hlearns, hrest⟩ := htracks reply hpossible
    obtain ⟨hkept, hI₂⟩ := hlearned s' hlearns
    exact ⟨⟨hguar, hkept⟩, ih reply hnext hrest hI₂⟩

end Views

end RefundStudy.Foundation
