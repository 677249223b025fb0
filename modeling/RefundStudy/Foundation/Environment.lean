/-
  A program run against an environment, and a program that makes its calls through a larger
  interface.
-/
import RefundStudy.Foundation.Trace

set_option autoImplicit false

namespace RefundStudy.Foundation

section Environments

variable {Call : Type} {Reply : Call → Type} {α : Type}

/-- How a party answers a call after what was exchanged before it. -/
abbrev Environment (Call : Type) (Reply : Call → Type) : Type :=
  List (Exchange Call Reply) → (request : Call) → Reply request

/-- The run against an environment, after these exchanges. -/
def Program.against (environment : Environment Call Reply) :
    List (Exchange Call Reply) → Program Call Reply α → List (Exchange Call Reply) × α
  | _, .ret value => ([], value)
  | before, .call request next =>
    let reply := environment before request
    let rest := Program.against environment (before ++ [⟨request, reply⟩]) (next reply)
    (⟨request, reply⟩ :: rest.1, rest.2)

theorem Program.against_traced (environment : Environment Call Reply) (p : Program Call Reply α)
    (before : List (Exchange Call Reply)) :
    Traced p (p.against environment before).1 (p.against environment before).2 := by
  induction p generalizing before with
  | ret value => exact .ret
  | call request next ih => exact .call (ih _ _)

theorem Program.against_answers {environment : Environment Call Reply} {p : Program Call Reply α}
    {before front back : List (Exchange Call Reply)} {request : Call} {reply : Reply request}
    (h : (p.against environment before).1 = front ++ ⟨request, reply⟩ :: back) :
    reply = environment (before ++ front) request := by
  induction p generalizing before front with
  | ret value => cases front <;> cases h
  | call asked next ih =>
    cases front with
    | nil =>
      rw [List.append_nil]
      obtain ⟨hhead, -⟩ := List.cons.inj h
      cases hhead
      rfl
    | cons first rest =>
      obtain ⟨hhead, htail⟩ := List.cons.inj h
      have hlater := ih _ htail
      rw [hhead, List.append_assoc] at hlater
      exact hlater

end Environments

section Interfaces

variable {Call Outer : Type} {Reply : Outer → Type} {α ε σ E : Type}

/-- Make every call through a larger interface. -/
def Program.within (embed : Call → Outer) :
    Program Call (fun request => Reply (embed request)) α → Program Outer Reply α
  | .ret value => .ret value
  | .call request next => .call (embed request) fun reply => Program.within embed (next reply)

def Exchange.within (embed : Call → Outer)
    (exchange : Exchange Call fun request => Reply (embed request)) : Exchange Outer Reply :=
  ⟨embed exchange.1, exchange.2⟩

theorem Traced.of_within {embed : Call → Outer}
    {p : Program Call (fun request => Reply (embed request)) α}
    {trace : List (Exchange Outer Reply)} {value : α} (h : Traced (p.within embed) trace value) :
    ∃ inner, Traced p inner value ∧ trace = inner.map (Exchange.within embed) := by
  induction p generalizing trace with
  | ret result =>
    cases h with
    | ret => exact ⟨[], .ret, rfl⟩
  | call request next ih =>
    cases h with
    | @call _ _ reply _ _ hrest =>
      obtain ⟨inner, htraced, rfl⟩ := ih reply hrest
      exact ⟨⟨request, reply⟩ :: inner, .call htraced, rfl⟩

def Stateful.within (embed : Call → Outer)
    (m : Stateful ε σ Call (fun request => Reply (embed request)) α) : Stateful ε σ Outer Reply α :=
  ExceptT.mk fun state => Program.within embed (m.run.run state)

/-- What a program does to its log it does through the larger interface too. -/
theorem Emits.within {log : σ → List E} {start : List E} (embed : Call → Outer)
    {m : Stateful ε σ Call (fun request => Reply (embed request)) α}
    {R : Except ε α → List E → List (Exchange Call fun request => Reply (embed request)) → Prop}
    (h : Emits log start m R) :
    Emits log start (Stateful.within embed m) fun result emitted trace =>
      ∃ inner, trace = inner.map (Exchange.within embed) ∧ R result emitted inner := by
  intro state hstate trace out htraced
  obtain ⟨inner, hinner, rfl⟩ := Traced.of_within htraced
  obtain ⟨emitted, hlog, hR⟩ := h state hstate inner out hinner
  exact ⟨emitted, hlog, inner, rfl, hR⟩

end Interfaces

end RefundStudy.Foundation
