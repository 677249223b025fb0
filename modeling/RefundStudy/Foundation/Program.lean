/-
  Programs that talk to a shared world one call at a time, and what it means for one
  of them to be safe under interference.

  An asynchronous function is a tree: it returns or makes one call and continues with the reply.
  `Safe answers R G Q p w` says: whatever the interference `R` does between calls, every call of
  `p` started from `w` changes the world only as the guarantee `G` allows, and a returned value
  satisfies `Q`.
-/
import Mathlib.Logic.Relation
import Mathlib.Logic.Function.Basic

set_option autoImplicit false

namespace RefundStudy.Foundation

/-- A program over calls `Call`, each answered with its own type of reply. -/
inductive Program (Call : Type) (Reply : Call → Type) (α : Type) : Type where
  | ret (value : α)
  | call (request : Call) (next : Reply request → Program Call Reply α)

namespace Program

variable {Call : Type} {Reply : Call → Type} {α β γ : Type}

/-- Sequencing: the second program starts from the first one's result. -/
def bind : Program Call Reply α → (α → Program Call Reply β) → Program Call Reply β
  | .ret value, rest => rest value
  | .call request next, rest => .call request fun reply => (next reply).bind rest

/-- A single call that returns its reply. -/
def perform (request : Call) : Program Call Reply (Reply request) :=
  .call request .ret

instance : Monad (Program Call Reply) where
  pure := .ret
  bind := bind

end Program

/-- What other parties may do to the world between two calls of one program. -/
structure Interference (W : Type) where
  rel : W → W → Prop
  refl : ∀ w, rel w w
  trans : ∀ {w₁ w₂ w₃}, rel w₁ w₂ → rel w₂ w₃ → rel w₁ w₃

namespace Interference

def none (W : Type) : Interference W where
  rel := Eq
  refl := fun _ => rfl
  trans := fun h₁ h₂ => h₁.trans h₂

/-- The interference generated by a relation on single steps. -/
def generated {W : Type} (step : W → W → Prop) : Interference W where
  rel := Relation.ReflTransGen step
  refl := fun _ => .refl
  trans := fun h₁ h₂ => h₁.trans h₂

theorem generated_stable {W : Type} {step : W → W → Prop} {P : W → Prop}
    (hstep : ∀ w w', step w w' → P w → P w') {w w' : W}
    (hrel : (generated step).rel w w') (hP : P w) : P w' := by
  induction hrel with
  | refl => exact hP
  | tail _ hlast ih => exact hstep _ _ hlast ih

end Interference

/-- How the world may answer a call: the reply and the world after it. -/
abbrev Answers (Call : Type) (Reply : Call → Type) (W : Type) : Type :=
  (request : Call) → W → Reply request → W → Prop

section Judgement

variable {Call : Type} {Reply : Call → Type} {W α β : Type}

/-- Every call of the program keeps the guarantee and every returned value
satisfies the postcondition, whatever the interference does in between. -/
def Safe (answers : Answers Call Reply W) (R : Interference W)
    (G : W → W → Prop) (Q : α → W → Prop) : Program Call Reply α → W → Prop
  | .ret value, w => ∀ w', R.rel w w' → Q value w'
  | .call request next, w =>
    ∀ w₁, R.rel w w₁ → ∀ reply w₂, answers request w₁ reply w₂ →
      G w₁ w₂ ∧ Safe answers R G Q (next reply) w₂

variable {answers : Answers Call Reply W} {R : Interference W}
  {G G' : W → W → Prop} {Q Q' : α → W → Prop}

namespace Safe

variable {w : W}

theorem ret {value : α} (hQ : ∀ w', R.rel w w' → Q value w') :
    Safe answers R G Q (.ret value) w := hQ

theorem call {request : Call} {next : Reply request → Program Call Reply α}
    (h : ∀ w₁, R.rel w w₁ → ∀ reply w₂, answers request w₁ reply w₂ →
      G w₁ w₂ ∧ Safe answers R G Q (next reply) w₂) :
    Safe answers R G Q (.call request next) w := h

variable {p : Program Call Reply α}

theorem interfere {w' : W} (hsafe : Safe answers R G Q p w) (hrel : R.rel w w') :
    Safe answers R G Q p w' := by
  cases p with
  | ret value => exact fun w₁ h₁ => hsafe w₁ (R.trans hrel h₁)
  | call request next => exact fun w₁ h₁ => hsafe w₁ (R.trans hrel h₁)

/-- A safe program stays safe for a weaker guarantee and a weaker result. -/
theorem mono (hsafe : Safe answers R G Q p w) (hG : ∀ w w', G w w' → G' w w')
    (hQ : ∀ value w, Q value w → Q' value w) : Safe answers R G' Q' p w := by
  induction p generalizing w with
  | ret value => exact fun w₁ h₁ => hQ value w₁ (hsafe w₁ h₁)
  | call request next ih =>
    intro w₁ h₁ reply w₂ hans
    obtain ⟨hguar, hnext⟩ := hsafe w₁ h₁ reply w₂ hans
    exact ⟨hG _ _ hguar, ih reply hnext⟩

theorem weaken (hsafe : Safe answers R G Q p w) (hQ : ∀ value w, Q value w → Q' value w) :
    Safe answers R G Q' p w :=
  hsafe.mono (fun _ _ h => h) hQ

theorem guarantee (hsafe : Safe answers R G Q p w) (hG : ∀ w w', G w w' → G' w w') :
    Safe answers R G' Q p w :=
  hsafe.mono hG (fun _ _ h => h)

/-- The sequencing rule: the first program's postcondition is the second one's
starting point. -/
theorem bind {rest : α → Program Call Reply β} {Q₂ : β → W → Prop} (hfirst : Safe answers R G Q p w)
    (hrest : ∀ value w, Q value w → Safe answers R G Q₂ (rest value) w) :
    Safe answers R G Q₂ (p >>= rest) w := by
  induction p generalizing w with
  | ret value => exact hrest value w (hfirst w (R.refl w))
  | call request next ih =>
    intro w₁ h₁ reply w₂ hans
    obtain ⟨hguar, hnext⟩ := hfirst w₁ h₁ reply w₂ hans
    exact ⟨hguar, ih reply hnext⟩

/-- The frame rule: a fact that interference and the guarantee both keep holds
at the end when it holds at the start. -/
theorem frame {P : W → Prop} (hsafe : Safe answers R G Q p w) (hR : ∀ w w', R.rel w w' → P w → P w')
    (hG : ∀ w w', G w w' → P w → P w') (hP : P w) :
    Safe answers R G (fun value w => Q value w ∧ P w) p w := by
  induction p generalizing w with
  | ret value => exact fun w₁ h₁ => ⟨hsafe w₁ h₁, hR _ _ h₁ hP⟩
  | call request next ih =>
    intro w₁ h₁ reply w₂ hans
    obtain ⟨hguar, hnext⟩ := hsafe w₁ h₁ reply w₂ hans
    exact ⟨hguar, ih reply hnext (hG _ _ hguar (hR _ _ h₁ hP))⟩

end Safe

/-! ### Programs that may throw -/

variable {ε : Type}

/-- A sequence of two steps that may fail returns only when both return. -/
theorem exists_of_bind_eq_ok {first : Except ε α} {rest : α → Except ε β} {value : β}
    (h : (first >>= rest) = .ok value) :
    ∃ middle, first = .ok middle ∧ rest middle = .ok value := by
  cases first with
  | error e => cases h
  | ok middle => exact ⟨middle, rfl, h⟩

/-- What a loop of steps that may fail collects, some step returned. -/
theorem mem_of_mapM_ok {f : α → Except ε β} {items : List α} {values : List β}
    (h : items.mapM f = .ok values) : ∀ value ∈ values, ∃ item ∈ items, f item = .ok value := by
  induction items generalizing values with
  | nil =>
    obtain rfl := Except.ok.inj h
    intro value hvalue
    cases hvalue
  | cons head rest ih =>
    rw [List.mapM_cons] at h
    obtain ⟨first, hfirst, h⟩ := exists_of_bind_eq_ok h
    obtain ⟨others, hothers, h⟩ := exists_of_bind_eq_ok h
    obtain rfl := Except.ok.inj h
    intro value hvalue
    rcases List.mem_cons.mp hvalue with rfl | hvalue
    · exact ⟨head, List.mem_cons_self, hfirst⟩
    · obtain ⟨item, hitem, hf⟩ := ih hothers value hvalue
      exact ⟨item, List.mem_cons_of_mem _ hitem, hf⟩

section Throwing

variable {ε : Type} {Q₂ : β → W → Prop} {w : W}

/-- A postcondition of the returned values only; a thrown error promises nothing. -/
def OnOk (Q : α → W → Prop) : Except ε α → W → Prop :=
  fun result w => ∀ value, result = .ok value → Q value w

/-- `Safe` for a program that may throw: the guarantee holds on every path, the
postcondition on the paths that return. -/
abbrev SafeOk (answers : Answers Call Reply W) (R : Interference W)
    (G : W → W → Prop) (Q : α → W → Prop) (p : ExceptT ε (Program Call Reply) α)
    (w : W) : Prop :=
  Safe answers R G (OnOk Q) p.run w

namespace SafeOk

theorem pure {value : α} (hQ : ∀ w', R.rel w w' → Q value w') :
    SafeOk answers R G Q (Pure.pure value : ExceptT ε (Program Call Reply) α) w := by
  intro w' hrel value' hvalue
  obtain rfl : value = value' := Except.ok.inj hvalue
  exact hQ w' hrel

theorem throw {error : ε} :
    SafeOk answers R G Q (throwThe ε error : ExceptT ε (Program Call Reply) α) w := by
  intro w' _ value hvalue
  cases hvalue

variable {p : ExceptT ε (Program Call Reply) α}

theorem bind {rest : α → ExceptT ε (Program Call Reply) β} (hfirst : SafeOk answers R G Q p w)
    (hrest : ∀ value w, Q value w → SafeOk answers R G Q₂ (rest value) w) :
    SafeOk answers R G Q₂ (p >>= rest) w := by
  refine Safe.bind hfirst ?_
  intro result w₁ hresult
  cases result with
  | ok value => exact hrest value w₁ (hresult value rfl)
  | error e => exact SafeOk.throw

theorem call {request : Call} {rest : Reply request → ExceptT ε (Program Call Reply) α}
    (h : ∀ w₁, R.rel w w₁ → ∀ reply w₂, answers request w₁ reply w₂ →
      G w₁ w₂ ∧ SafeOk answers R G Q (rest reply) w₂) :
    SafeOk answers R G Q (ExceptT.lift (Program.perform request) >>= rest) w := h

theorem weaken {Q' : α → W → Prop} (hsafe : SafeOk answers R G Q p w)
    (hQ : ∀ value w, Q value w → Q' value w) : SafeOk answers R G Q' p w :=
  Safe.weaken hsafe fun _ w hok value hvalue => hQ value w (hok value hvalue)

theorem frame {P : W → Prop} (hsafe : SafeOk answers R G Q p w)
    (hR : ∀ w w', R.rel w w' → P w → P w') (hG : ∀ w w', G w w' → P w → P w') (hP : P w) :
    SafeOk answers R G (fun value w => Q value w ∧ P w) p w :=
  Safe.weaken (Safe.frame hsafe hR hG hP)
    fun _ _ h value hvalue => ⟨h.1 value hvalue, h.2⟩

end SafeOk

/-- Every error the program can throw is an allowed one, whatever the replies. -/
def ThrowsOnly (allowed : ε → Prop) : Program Call Reply (Except ε α) → Prop
  | .ret result => ∀ e, result = .error e → allowed e
  | .call _ next => ∀ reply, ThrowsOnly allowed (next reply)

namespace ThrowsOnly

variable {allowed : ε → Prop}

theorem pure {value : α} : ThrowsOnly allowed
    (Pure.pure value : ExceptT ε (Program Call Reply) α).run := by
  intro e he
  cases he

theorem throw {error : ε} (h : allowed error) : ThrowsOnly allowed
    (throwThe ε error : ExceptT ε (Program Call Reply) α).run := by
  intro e he
  obtain rfl := Except.error.inj he
  exact h

theorem bind {p : ExceptT ε (Program Call Reply) α}
    {rest : α → ExceptT ε (Program Call Reply) β} (hfirst : ThrowsOnly allowed p.run)
    (hrest : ∀ value, ThrowsOnly allowed (rest value).run) :
    ThrowsOnly allowed (p >>= rest).run := by
  have hprogram : ∀ q : Program Call Reply (Except ε α), ThrowsOnly allowed q →
      ThrowsOnly allowed (q >>= ExceptT.bindCont rest) := by
    intro q
    induction q with
    | ret result =>
      intro h
      cases result with
      | ok value => exact hrest value
      | error e =>
        intro e' he
        obtain rfl := Except.error.inj he
        exact h e rfl
    | call request next ih => exact fun h reply => ih reply (h reply)
  exact hprogram p.run hfirst

theorem call {request : Call} {rest : Reply request → ExceptT ε (Program Call Reply) α}
    (h : ∀ reply, ThrowsOnly allowed (rest reply).run) :
    ThrowsOnly allowed (ExceptT.lift (Program.perform request) >>= rest).run := h

end ThrowsOnly

end Throwing

/-! ### Call protocols -/

section Protocol

variable {S : Type} {permits : S → Call → Prop} {after : S → (request : Call) → Reply request → S}

/-- The program makes only the calls its protocol state permits, whatever the replies; the
state moves with every reply, and `Q` holds of the result in the last state. -/
def Follows (permits : S → Call → Prop) (after : S → (request : Call) → Reply request → S)
    (Q : α → S → Prop) : Program Call Reply α → S → Prop
  | .ret value, s => Q value s
  | .call request next, s => permits s request ∧
      ∀ reply, Follows permits after Q (next reply) (after s request reply)

namespace Follows

theorem weaken {p : Program Call Reply α} {s : S} {Q Q' : α → S → Prop}
    (h : Follows permits after Q p s) (hQ : ∀ value s, Q value s → Q' value s) :
    Follows permits after Q' p s := by
  induction p generalizing s with
  | ret value => exact hQ value s h
  | call request next ih => exact ⟨h.1, fun reply => ih reply (h.2 reply)⟩

theorem bind {p : Program Call Reply α} {rest : α → Program Call Reply β} {s : S}
    {Q : α → S → Prop} {Q₂ : β → S → Prop} (hfirst : Follows permits after Q p s)
    (hrest : ∀ value s, Q value s → Follows permits after Q₂ (rest value) s) :
    Follows permits after Q₂ (p >>= rest) s := by
  induction p generalizing s with
  | ret value => exact hrest value s hfirst
  | call request next ih => exact ⟨hfirst.1, fun reply => ih reply (hfirst.2 reply)⟩

theorem call {request : Call} {rest : Reply request → Program Call Reply α} {s : S}
    {Q : α → S → Prop} (hpermits : permits s request)
    (hrest : ∀ reply, Follows permits after Q (rest reply) (after s request reply)) :
    Follows permits after Q (Program.perform request >>= rest) s :=
  ⟨hpermits, hrest⟩

end Follows

end Protocol

/-- A complete run of a program, with interference before every call and
before the result is looked at. -/
inductive RunsTo (answers : Answers Call Reply W) (R : Interference W) :
    Program Call Reply α → W → α → W → Prop where
  | ret {value : α} {w w' : W} (hrel : R.rel w w') :
      RunsTo answers R (.ret value) w value w'
  | call {request : Call} {next : Reply request → Program Call Reply α}
      {w w₁ w₂ w' : W} {reply : Reply request} {value : α}
      (hrel : R.rel w w₁) (hanswer : answers request w₁ reply w₂)
      (rest : RunsTo answers R (next reply) w₂ value w') :
      RunsTo answers R (.call request next) w value w'

/-- A run stopped after any number of calls: the program may have crashed
there, or it may still be running. -/
inductive CutAt (answers : Answers Call Reply W) (R : Interference W) :
    Program Call Reply α → W → W → Prop where
  | here {p : Program Call Reply α} {w w' : W} (hrel : R.rel w w') :
      CutAt answers R p w w'
  | call {request : Call} {next : Reply request → Program Call Reply α}
      {w w₁ w₂ w' : W} {reply : Reply request}
      (hrel : R.rel w w₁) (hanswer : answers request w₁ reply w₂)
      (rest : CutAt answers R (next reply) w₂ w') :
      CutAt answers R (.call request next) w w'

variable {w w' : W} {p : Program Call Reply α}

theorem RunsTo.result {value : α} (hrun : RunsTo answers R p w value w')
    (hsafe : Safe answers R G Q p w) : Q value w' := by
  induction hrun with
  | ret hrel => exact hsafe _ hrel
  | call hrel hanswer _ ih => exact ih (hsafe _ hrel _ _ hanswer).2

theorem RunsTo.cutAt {value : α} (hrun : RunsTo answers R p w value w') :
    CutAt answers R p w w' := by
  induction hrun with
  | ret hrel => exact .here hrel
  | call hrel hanswer _ ih => exact .call hrel hanswer ih

theorem RunsTo.thrown {allowed : ε → Prop} {p : Program Call Reply (Except ε α)} {e : ε}
    (hrun : RunsTo answers R p w (.error e) w') (hthrows : ThrowsOnly allowed p) : allowed e := by
  generalize hresult : (Except.error e : Except ε α) = result at hrun
  induction hrun with
  | ret => exact hthrows e hresult.symm
  | call _ _ _ ih => exact ih (hthrows _) hresult

theorem RunsTo.split {rest : α → Program Call Reply β} {value : β}
    (hrun : RunsTo answers R (p >>= rest) w value w') :
    ∃ middle w₁, RunsTo answers R p w middle w₁ ∧
      RunsTo answers R (rest middle) w₁ value w' := by
  induction p generalizing w with
  | ret middle => exact ⟨middle, w, .ret (R.refl w), hrun⟩
  | call request next ih =>
    cases hrun with
    | call hrel hanswer hnext =>
      obtain ⟨middle, w₁, hfirst, hsecond⟩ := ih _ hnext
      exact ⟨middle, w₁, .call hrel hanswer hfirst, hsecond⟩

/-- A fact that interference and the guarantee both keep survives a run of a
safe program stopped anywhere. -/
theorem CutAt.keeps {P : W → Prop} (hcut : CutAt answers R p w w') (hsafe : Safe answers R G Q p w)
    (hR : ∀ w w', R.rel w w' → P w → P w') (hG : ∀ w w', G w w' → P w → P w') (hP : P w) :
    P w' := by
  induction hcut with
  | here hrel => exact hR _ _ hrel hP
  | call hrel hanswer _ ih =>
    obtain ⟨hguar, hnext⟩ := hsafe _ hrel _ _ hanswer
    exact ih hnext (hG _ _ hguar (hR _ _ hrel hP))

end Judgement

end RefundStudy.Foundation
