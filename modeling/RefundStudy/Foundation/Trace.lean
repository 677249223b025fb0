/-
  The exchanges of one complete run, and programs that keep a log in local state.

  A complete run is a list of exchanges and a result (`Traced`).
-/
import RefundStudy.Foundation.Program

set_option autoImplicit false

namespace RefundStudy.Foundation

section Traces

variable {Call : Type} {Reply : Call → Type} {α β : Type}

abbrev Exchange (Call : Type) (Reply : Call → Type) : Type := (request : Call) × Reply request

/-- A complete run: the exchanges in order, and the value returned after them. -/
inductive Traced : Program Call Reply α → List (Exchange Call Reply) → α → Prop where
  | ret {value : α} : Traced (.ret value) [] value
  | call {request : Call} {next : Reply request → Program Call Reply α} {reply : Reply request}
      {trace : List (Exchange Call Reply)} {value : α} (rest : Traced (next reply) trace value) :
      Traced (.call request next) (⟨request, reply⟩ :: trace) value

theorem Traced.split {p : Program Call Reply α} {rest : α → Program Call Reply β}
    {trace : List (Exchange Call Reply)} {value : β} (h : Traced (p >>= rest) trace value) :
    ∃ front back middle, trace = front ++ back ∧ Traced p front middle ∧
      Traced (rest middle) back value := by
  induction p generalizing trace with
  | ret middle => exact ⟨[], trace, middle, rfl, .ret, h⟩
  | call request next ih =>
    cases h with
    | call hrest =>
      obtain ⟨front, back, middle, rfl, hfront, hback⟩ := ih _ hrest
      exact ⟨_ :: front, back, middle, rfl, .call hfront, hback⟩

/-- The exchanges of a run up to some moment: the program may have returned there, may still be
running or may never go on. -/
inductive TracedUpTo : Program Call Reply α → List (Exchange Call Reply) → Prop where
  | here {p : Program Call Reply α} : TracedUpTo p []
  | call {request : Call} {next : Reply request → Program Call Reply α} {reply : Reply request}
      {trace : List (Exchange Call Reply)} (rest : TracedUpTo (next reply) trace) :
      TracedUpTo (.call request next) (⟨request, reply⟩ :: trace)

/-- The program keeps a property of its history: it holds before every call and at the end,
whatever the replies. -/
abbrev KeepsHistory (P : List (Exchange Call Reply) → Prop) (Q : α → List (Exchange Call Reply) → Prop)
    (p : Program Call Reply α) (history : List (Exchange Call Reply)) : Prop :=
  Follows (fun history _ => P history) (fun history request reply => history ++ [⟨request, reply⟩])
    (fun value history => P history ∧ Q value history) p history

theorem KeepsHistory.upTo {P : List (Exchange Call Reply) → Prop}
    {Q : α → List (Exchange Call Reply) → Prop} {p : Program Call Reply α}
    {history trace : List (Exchange Call Reply)} (h : KeepsHistory P Q p history)
    (htrace : TracedUpTo p trace) : P (history ++ trace) := by
  induction htrace generalizing history with
  | @here p =>
    rw [List.append_nil]
    cases p with
    | ret value => exact h.1
    | call request next => exact h.1
  | @call request next reply trace rest ih =>
    have hrest := ih (h.2 reply)
    rw [List.append_assoc] at hrest
    exact hrest

def Program.answered (oracle : (request : Call) → Reply request) :
    Program Call Reply α → List (Exchange Call Reply) × α
  | .ret value => ([], value)
  | .call request next =>
    let rest := Program.answered oracle (next (oracle request))
    (⟨request, oracle request⟩ :: rest.1, rest.2)

theorem Program.answered_traced (oracle : (request : Call) → Reply request)
    (p : Program Call Reply α) : Traced p (p.answered oracle).1 (p.answered oracle).2 := by
  induction p with
  | ret value => exact .ret
  | call request next ih => exact .call (ih (oracle request))

theorem Program.reply_of_mem_answered {oracle : (request : Call) → Reply request}
    {p : Program Call Reply α} {exchange : Exchange Call Reply}
    (hmem : exchange ∈ (p.answered oracle).1) : exchange.2 = oracle exchange.1 := by
  induction p with
  | ret value => cases hmem
  | call request next ih =>
    rcases List.mem_cons.mp hmem with rfl | hrest
    · rfl
    · exact ih _ hrest

end Traces

section Logs

variable {ε σ E : Type} {Call : Type} {Reply : Call → Type} {α β : Type}

/-- A program with local state that may throw. -/
abbrev Stateful (ε σ : Type) (Call : Type) (Reply : Call → Type) : Type → Type :=
  ExceptT ε (StateT σ (Program Call Reply))

/-- One call, with nothing of the local state touched. -/
def Stateful.perform (request : Call) : Stateful ε σ Call Reply (Reply request) :=
  ExceptT.lift (StateT.lift (Program.perform request))

def Stateful.update (f : σ → σ) : Stateful ε σ Call Reply Unit :=
  ExceptT.lift (modify f)

def Stateful.inspect (f : σ → α) : Stateful ε σ Call Reply α :=
  ExceptT.lift (do return f (← get))

/-- Run the handler when the program throws. -/
def Stateful.orElse (m : Stateful ε σ Call Reply α) (handler : ε → Stateful ε σ Call Reply α) :
    Stateful ε σ Call Reply α :=
  ExceptT.tryCatch m handler

/-- From a state with the log `start`, the program only adds to the log, and its result, the
entries it adds and its exchanges satisfy `R`. -/
def Emits (log : σ → List E) (start : List E) (m : Stateful ε σ Call Reply α)
    (R : Except ε α → List E → List (Exchange Call Reply) → Prop) : Prop :=
  ∀ s, log s = start → ∀ trace out, Traced (m.run.run s) trace out →
    ∃ emitted, log out.2 = start ++ emitted ∧ R out.1 emitted trace

namespace Emits

variable {log : σ → List E} {start : List E}
  {R R' : Except ε α → List E → List (Exchange Call Reply) → Prop}
  {R₂ : Except ε β → List E → List (Exchange Call Reply) → Prop}

theorem weaken {m : Stateful ε σ Call Reply α} (h : Emits log start m R)
    (hR : ∀ result emitted trace, R result emitted trace → R' result emitted trace) :
    Emits log start m R' := by
  intro s hs trace out htraced
  obtain ⟨emitted, hlog, hout⟩ := h s hs trace out htraced
  exact ⟨emitted, hlog, hR _ _ _ hout⟩

theorem pure {value : α} (h : R (.ok value) [] []) :
    Emits log start (Pure.pure value : Stateful ε σ Call Reply α) R := by
  intro s hs trace out htraced
  cases htraced with
  | ret => exact ⟨[], by rw [List.append_nil]; exact hs, h⟩

theorem throw {error : ε} (h : R (.error error) [] []) :
    Emits log start (throwThe ε error : Stateful ε σ Call Reply α) R := by
  intro s hs trace out htraced
  cases htraced with
  | ret => exact ⟨[], by rw [List.append_nil]; exact hs, h⟩

theorem perform {request : Call}
    {R : Except ε (Reply request) → List E → List (Exchange Call Reply) → Prop}
    (h : ∀ reply, R (.ok reply) [] [⟨request, reply⟩]) :
    Emits log start (Stateful.perform request) R := by
  intro s hs trace out htraced
  cases htraced with
  | @call _ _ reply _ _ hrest =>
    cases hrest with
    | ret => exact ⟨[], by rw [List.append_nil]; exact hs, h reply⟩

theorem inspect {f : σ → α} (h : ∀ s, log s = start → R (.ok (f s)) [] []) :
    Emits log start (Stateful.inspect f) R := by
  intro s hs trace out htraced
  cases htraced with
  | ret => exact ⟨[], by rw [List.append_nil]; exact hs, h s hs⟩

theorem update {f : σ → σ} {emitted : List E}
    {R : Except ε Unit → List E → List (Exchange Call Reply) → Prop}
    (hlog : ∀ s, log (f s) = log s ++ emitted) (h : R (.ok ()) emitted []) :
    Emits log start (Stateful.update f) R := by
  intro s hs trace out htraced
  cases htraced with
  | ret => exact ⟨emitted, by rw [← hs]; exact hlog s, h⟩

/-- Sequencing: what the second program adds stands after what the first one added, and an
error of the first one skips the second. -/
theorem bind {m : Stateful ε σ Call Reply α} {rest : α → Stateful ε σ Call Reply β}
    (hfirst : Emits log start m R)
    (hrest : ∀ value emitted trace, R (.ok value) emitted trace →
      Emits log (start ++ emitted) (rest value) fun result emitted' trace' =>
        R₂ result (emitted ++ emitted') (trace ++ trace'))
    (herror : ∀ error emitted trace, R (.error error) emitted trace →
      R₂ (.error error) emitted trace) : Emits log start (m >>= rest) R₂ := by
  intro s hs trace out htraced
  obtain ⟨front, back, middle, rfl, hfront, hback⟩ := htraced.split
  obtain ⟨emitted, hlog, hmiddle⟩ := hfirst s hs front middle hfront
  obtain ⟨result, s'⟩ := middle
  cases result with
  | ok value =>
    obtain ⟨emitted', hlog', hout⟩ := hrest value emitted front hmiddle s' hlog back out hback
    exact ⟨emitted ++ emitted', by rw [hlog', List.append_assoc], hout⟩
  | error error =>
    cases hback with
    | ret =>
      rw [List.append_nil]
      exact ⟨emitted, hlog, herror error emitted front hmiddle⟩

/-- Sequencing after a program that never throws. -/
theorem andThen {m : Stateful ε σ Call Reply α} {rest : α → Stateful ε σ Call Reply β}
    (hfirst : Emits log start m R)
    (hrest : ∀ value emitted trace, R (.ok value) emitted trace →
      Emits log (start ++ emitted) (rest value) fun result emitted' trace' =>
        R₂ result (emitted ++ emitted') (trace ++ trace'))
    (hok : ∀ error emitted trace, ¬ R (.error error) emitted trace := by simp) :
    Emits log start (m >>= rest) R₂ :=
  hfirst.bind hrest fun error emitted trace h => absurd h (hok error emitted trace)

theorem orElse {m : Stateful ε σ Call Reply α} {handler : ε → Stateful ε σ Call Reply α}
    (hfirst : Emits log start m R)
    (hok : ∀ value emitted trace, R (.ok value) emitted trace → R' (.ok value) emitted trace)
    (hhandler : ∀ error emitted trace, R (.error error) emitted trace →
      Emits log (start ++ emitted) (handler error) fun result emitted' trace' =>
        R' result (emitted ++ emitted') (trace ++ trace')) :
    Emits log start (m.orElse handler) R' := by
  intro s hs trace out htraced
  obtain ⟨front, back, middle, rfl, hfront, hback⟩ := htraced.split
  obtain ⟨emitted, hlog, hmiddle⟩ := hfirst s hs front middle hfront
  obtain ⟨result, s'⟩ := middle
  cases result with
  | ok value =>
    cases hback with
    | ret =>
      rw [List.append_nil]
      exact ⟨emitted, hlog, hok value emitted front hmiddle⟩
  | error error =>
    obtain ⟨emitted', hlog', hout⟩ := hhandler error emitted front hmiddle s' hlog back out hback
    exact ⟨emitted ++ emitted', by rw [hlog', List.append_assoc], hout⟩

theorem both {m : Stateful ε σ Call Reply α} (h : Emits log start m R)
    (h' : Emits log start m R') : Emits log start m fun result emitted trace =>
      R result emitted trace ∧ R' result emitted trace := by
  intro s hs trace out htraced
  obtain ⟨emitted, hlog, hout⟩ := h s hs trace out htraced
  obtain ⟨emitted', hlog', hout'⟩ := h' s hs trace out htraced
  obtain rfl := List.append_cancel_left (hlog.symm.trans hlog')
  exact ⟨emitted, hlog, hout, hout'⟩

end Emits

/-- Every value the program returns satisfies `Q`. -/
def Yields (log : σ → List E) (m : Stateful ε σ Call Reply α) (Q : α → Prop) : Prop :=
  ∀ start, Emits log start m fun result _ _ => ∀ value, result = .ok value → Q value

namespace Yields

variable {log : σ → List E} {Q : α → Prop} {Q₂ : β → Prop}

theorem pure {value : α} (h : Q value) :
    Yields log (Pure.pure value : Stateful ε σ Call Reply α) Q := by
  refine fun _ => Emits.pure fun value' heq => ?_
  obtain rfl := Except.ok.inj heq
  exact h

theorem bind {m : Stateful ε σ Call Reply α} {rest : α → Stateful ε σ Call Reply β}
    (hfirst : Yields log m Q) (hrest : ∀ value, Q value → Yields log (rest value) Q₂) :
    Yields log (m >>= rest) Q₂ := by
  intro start
  refine (hfirst start).bind ?_ ?_
  · intro value emitted trace h
    exact hrest value (h value rfl) _
  · intro error emitted trace _ value heq
    cases heq

end Yields

/-- A relation between added entries and exchanges that is closed under sequencing. -/
structure Accumulates (A : List E → List (Exchange Call Reply) → Prop) : Prop where
  nil : A [] []
  append : ∀ {emitted emitted' trace trace'}, A emitted trace → A emitted' trace' →
    A (emitted ++ emitted') (trace ++ trace')

/-- Whatever the program returns or throws, what it adds to the log and what it exchanges are
related by `A`. -/
def Keeps (log : σ → List E) (A : List E → List (Exchange Call Reply) → Prop)
    (m : Stateful ε σ Call Reply α) : Prop :=
  ∀ start, Emits log start m fun _ emitted trace => A emitted trace

namespace Keeps

variable {log : σ → List E} {A : List E → List (Exchange Call Reply) → Prop}

theorem pure (hA : Accumulates A) {value : α} :
    Keeps log A (Pure.pure value : Stateful ε σ Call Reply α) :=
  fun _ => Emits.pure hA.nil

theorem inspect (hA : Accumulates A) {f : σ → α} :
    Keeps log A (Stateful.inspect f : Stateful ε σ Call Reply α) :=
  fun _ => Emits.inspect fun _ _ => hA.nil

theorem update (hA : Accumulates A) {f : σ → σ} (hlog : ∀ s, log (f s) = log s) :
    Keeps log A (Stateful.update f : Stateful ε σ Call Reply Unit) :=
  fun _ => Emits.update (fun s => by rw [hlog s, List.append_nil]) hA.nil

theorem bind (hA : Accumulates A) {m : Stateful ε σ Call Reply α}
    {rest : α → Stateful ε σ Call Reply β} (hfirst : Keeps log A m)
    (hrest : ∀ value, Keeps log A (rest value)) : Keeps log A (m >>= rest) := by
  intro start
  refine (hfirst start).bind ?_ fun _ _ _ h => h
  intro value emitted trace h
  exact (hrest value _).weaken fun _ _ _ h' => hA.append h h'

end Keeps

end Logs

end RefundStudy.Foundation
