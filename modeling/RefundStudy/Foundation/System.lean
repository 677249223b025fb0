/-
  Any number of programs over one world, interleaved at the granularity of their
  calls.  The index type of the processes is arbitrary; a process that has not been
  scheduled yet has not started.

  If each program is safe with its own guarantee under the interference generated by the
  guarantees of the others, then in every reachable configuration every residual program is still
  safe, and the world has moved by guaranteed steps only (`Reachable.safe`, `Reachable.moved`).
-/
import RefundStudy.Foundation.Program

set_option autoImplicit false

namespace RefundStudy.Foundation

/-- A world that answers calls: a choice resolves what the world leaves open,
and a choice that does not fit the call is refused. -/
structure Machine (ι Call : Type) (Reply : Call → Type) (W Choice : Type) where
  exec : ι → (request : Call) → Choice → W → Option (Reply request × W)

namespace Machine

variable {ι Call : Type} {Reply : Call → Type} {W Choice : Type}

/-- The answers one process can get: those some choice produces. -/
def answers (m : Machine ι Call Reply W Choice) (i : ι) : Answers Call Reply W :=
  fun request w reply w' => ∃ choice, m.exec i request choice w = some (reply, w')

/-- The machine that takes only the steps meeting a condition on the process,
the call and the world before the call. -/
def restrict (m : Machine ι Call Reply W Choice) (allowed : ι → Call → W → Prop) (i : ι) :
    Answers Call Reply W :=
  fun request w reply w' => allowed i request w ∧ m.answers i request w reply w'

end Machine

/-- A configuration: the shared world and what every process still has to do. -/
structure Config (ι Call : Type) (Reply : Call → Type) (W α : Type) where
  world : W
  programs : ι → Program Call Reply α

section Guarantees

variable {ι W : Type}

/-- The interference one process sees: the guaranteed steps of all the others. -/
def others (G : ι → W → W → Prop) (i : ι) : Interference W :=
  .generated fun w w' => ∃ j, j ≠ i ∧ G j w w'

theorem others_stable {G : ι → W → W → Prop} {i : ι} {P : W → Prop}
    (hstep : ∀ j w w', j ≠ i → G j w w' → P w → P w') {w w' : W}
    (hrel : (others G i).rel w w') (hP : P w) : P w' :=
  Interference.generated_stable
    (fun _ _ ⟨j, hne, hG⟩ hPw => hstep j _ _ hne hG hPw) hrel hP

end Guarantees

section Interleaving

variable {ι Call : Type} {Reply : Call → Type} {W α : Type} [DecidableEq ι]

/-- One process makes its next call; every other process is untouched. -/
inductive Step (answers : ι → Answers Call Reply W) :
    Config ι Call Reply W α → Config ι Call Reply W α → Prop where
  | mk {cfg : Config ι Call Reply W α} (i : ι) {request : Call}
      {next : Reply request → Program Call Reply α} {reply : Reply request} {w' : W}
      (hprogram : cfg.programs i = .call request next)
      (hanswer : answers i request cfg.world reply w') :
      Step answers cfg ⟨w', Function.update cfg.programs i (next reply)⟩

abbrev Reachable (answers : ι → Answers Call Reply W) :
    Config ι Call Reply W α → Config ι Call Reply W α → Prop :=
  Relation.ReflTransGen (Step answers)

variable {answers : ι → Answers Call Reply W} {G : ι → W → W → Prop}
  {Q : ι → α → W → Prop}

def AllSafe (answers : ι → Answers Call Reply W) (G : ι → W → W → Prop)
    (Q : ι → α → W → Prop) (cfg : Config ι Call Reply W α) : Prop :=
  ∀ i, Safe (answers i) (others G i) (G i) (Q i) (cfg.programs i) cfg.world

variable {cfg : Config ι Call Reply W α}

theorem Step.keeps_safe {cfg' : Config ι Call Reply W α} (hstep : Step answers cfg cfg')
    (hsafe : AllSafe answers G Q cfg) :
    AllSafe answers G Q cfg' ∧ ∃ i, G i cfg.world cfg'.world ∧
      ∀ j, j ≠ i → cfg'.programs j = cfg.programs j := by
  cases hstep with
  | mk i hprogram hanswer =>
    have hself := hsafe i
    rw [hprogram] at hself
    obtain ⟨hguar, hnext⟩ := hself _ ((others G i).refl _) _ _ hanswer
    refine ⟨fun j => ?_, i, hguar, fun j hne => Function.update_of_ne hne _ _⟩
    by_cases hji : j = i
    · subst hji
      simpa using hnext
    · have hkeep := (hsafe j).interfere
        (Relation.ReflTransGen.single ⟨i, Ne.symm hji, hguar⟩)
      simpa [Function.update_of_ne hji] using hkeep

variable {init : Config ι Call Reply W α}

theorem Reachable.safe (hreach : Reachable answers init cfg) (hinit : AllSafe answers G Q init) :
    AllSafe answers G Q cfg := by
  induction hreach with
  | refl => exact hinit
  | tail _ hlast ih => exact (hlast.keeps_safe ih).1

theorem Reachable.moved (hreach : Reachable answers init cfg) (hinit : AllSafe answers G Q init) :
    Relation.ReflTransGen (fun w w' => ∃ i, G i w w') init.world cfg.world := by
  induction hreach with
  | refl => exact .refl
  | tail hpre hlast ih =>
    obtain ⟨-, i, hguar, -⟩ := hlast.keeps_safe (Reachable.safe hpre hinit)
    exact ih.tail ⟨i, hguar⟩

/-- The step rule for invariants of the world: hold initially, kept by every
guaranteed step, hence true in every reachable configuration. -/
theorem Reachable.invariant {P : W → Prop} (hreach : Reachable answers init cfg)
    (hinit : AllSafe answers G Q init) (hstep : ∀ i w w', G i w w' → P w → P w') (hP : P init.world) :
    P cfg.world := by
  have hmoved : (Interference.generated fun w w' => ∃ i, G i w w').rel
      init.world cfg.world := Reachable.moved hreach hinit
  exact Interference.generated_stable (fun w w' ⟨i, hG⟩ => hstep i w w' hG) hmoved hP

theorem Reachable.returned (hreach : Reachable answers init cfg) (hinit : AllSafe answers G Q init)
    {i : ι} {value : α} (hret : cfg.programs i = .ret value) : Q i value cfg.world := by
  have hsafe := Reachable.safe hreach hinit i
  rw [hret] at hsafe
  exact hsafe _ ((others G i).refl _)

/-- Programs that follow a call protocol keep following it, and whatever every permitted call
keeps of the protocol states and the world is true in every reachable configuration. -/
theorem Reachable.follows {S : Type} {permits : ι → S → Call → Prop}
    {after : S → (request : Call) → Reply request → S} {Q : ι → α → S → Prop}
    {I : (ι → S) → W → Prop} {states : ι → S} (hreach : Reachable answers init cfg)
    (hinit : ∀ i, Follows (permits i) after (Q i) (init.programs i) (states i))
    (hI : I states init.world)
    (hstep : ∀ states w i request reply w', permits i (states i) request →
      answers i request w reply w' → I states w →
      I (Function.update states i (after (states i) request reply)) w') :
    ∃ states, (∀ i, Follows (permits i) after (Q i) (cfg.programs i) (states i)) ∧
      I states cfg.world := by
  induction hreach with
  | refl => exact ⟨states, hinit, hI⟩
  | tail _ hlast ih =>
    obtain ⟨current, hfollows, hcurrent⟩ := ih
    cases hlast with
    | mk i hprogram hanswer =>
      have hself := hfollows i
      rw [hprogram] at hself
      refine ⟨_, fun j => ?_, hstep _ _ i _ _ _ hself.1 hanswer hcurrent⟩
      by_cases hji : j = i
      · subst hji
        simpa using hself.2 _
      · simpa [Function.update_of_ne hji] using hfollows j

end Interleaving

section Schedules

variable {ι Call : Type} {Reply : Call → Type} {W Choice α : Type} [DecidableEq ι]

def Config.advance (m : Machine ι Call Reply W Choice) (cfg : Config ι Call Reply W α)
    (i : ι) (choice : Choice) : Option (Config ι Call Reply W α) :=
  match cfg.programs i with
  | .ret _ => none
  | .call request next =>
    (m.exec i request choice cfg.world).map fun answer =>
      ⟨answer.2, Function.update cfg.programs i (next answer.1)⟩

def Config.play (m : Machine ι Call Reply W Choice) :
    List (ι × Choice) → Config ι Call Reply W α → Option (Config ι Call Reply W α)
  | [], cfg => some cfg
  | (i, choice) :: rest, cfg =>
    match cfg.advance m i choice with
    | none => none
    | some next => Config.play m rest next

variable {cfg cfg' : Config ι Call Reply W α}

theorem Config.advance_step {m : Machine ι Call Reply W Choice} {i : ι} {choice : Choice}
    (h : cfg.advance m i choice = some cfg') : Step m.answers cfg cfg' := by
  unfold Config.advance at h
  split at h
  · cases h
  · rename_i request next hprogram
    obtain ⟨answer, hexec, rfl⟩ := Option.map_eq_some_iff.mp h
    exact Step.mk i hprogram ⟨choice, hexec⟩

theorem Config.play_reachable {m : Machine ι Call Reply W Choice} {schedule : List (ι × Choice)}
    (h : cfg.play m schedule = some cfg') : Reachable m.answers cfg cfg' := by
  induction schedule generalizing cfg with
  | nil =>
    obtain rfl : cfg = cfg' := by simpa [Config.play] using h
    exact .refl
  | cons head rest ih =>
    obtain ⟨i, choice⟩ := head
    simp only [Config.play] at h
    split at h
    · cases h
    · rename_i next hadvance
      exact (ih h).head (Config.advance_step hadvance)

def Config.PlaysWithin (m : Machine ι Call Reply W Choice) (allowed : ι → Call → W → Prop) :
    List (ι × Choice) → Config ι Call Reply W α → Prop
  | [], _ => True
  | (i, choice) :: rest, cfg =>
    (match cfg.programs i with
      | .ret _ => True
      | .call request _ => allowed i request cfg.world) ∧
    (match cfg.advance m i choice with
      | none => True
      | some next => Config.PlaysWithin m allowed rest next)

theorem Config.play_restrict {m : Machine ι Call Reply W Choice} {allowed : ι → Call → W → Prop}
    {schedule : List (ι × Choice)} (h : cfg.play m schedule = some cfg')
    (hwithin : cfg.PlaysWithin m allowed schedule) : Reachable (m.restrict allowed) cfg cfg' := by
  induction schedule generalizing cfg with
  | nil =>
    obtain rfl : cfg = cfg' := by simpa [Config.play] using h
    exact .refl
  | cons head rest ih =>
    obtain ⟨i, choice⟩ := head
    obtain ⟨hallowed, hrest⟩ := hwithin
    simp only [Config.play] at h
    split at h
    · cases h
    · rename_i next hadvance
      rw [hadvance] at hrest
      refine (ih h hrest).head ?_
      unfold Config.advance at hadvance
      split at hadvance
      · cases hadvance
      · rename_i request rest' hprogram
        rw [hprogram] at hallowed
        obtain ⟨answer, hexec, rfl⟩ := Option.map_eq_some_iff.mp hadvance
        exact Step.mk i hprogram ⟨hallowed, choice, hexec⟩

end Schedules

section Alone

variable {ι Call : Type} {Reply : Call → Type} {W Choice α : Type}

def Program.play (m : Machine ι Call Reply W Choice) (i : ι) :
    List Choice → Program Call Reply α → W → Option (α × W)
  | _, .ret value, w => some (value, w)
  | [], .call _ _, _ => none
  | choice :: rest, .call request next, w =>
    match m.exec i request choice w with
    | none => none
    | some (reply, w') => Program.play m i rest (next reply) w'

theorem Program.play_runsTo {m : Machine ι Call Reply W Choice} {i : ι} {R : Interference W}
    {choices : List Choice} {p : Program Call Reply α} {w w' : W} {value : α}
    (h : Program.play m i choices p w = some (value, w')) :
    RunsTo (m.answers i) R p w value w' := by
  induction choices generalizing p w with
  | nil =>
    cases p with
    | ret returned =>
      obtain ⟨rfl, rfl⟩ := Prod.mk.inj (Option.some.inj h)
      exact .ret (R.refl _)
    | call request next => cases h
  | cons choice rest ih =>
    cases p with
    | ret returned =>
      obtain ⟨rfl, rfl⟩ := Prod.mk.inj (Option.some.inj h)
      exact .ret (R.refl _)
    | call request next =>
      simp only [Program.play] at h
      split at h
      · cases h
      · rename_i reply w₁ hexec
        exact .call (R.refl _) ⟨choice, hexec⟩ (ih h)

end Alone

end RefundStudy.Foundation
