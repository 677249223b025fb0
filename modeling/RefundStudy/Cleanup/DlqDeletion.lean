/-
  What a deletion of captured dead-letter messages asks the queues for, and what its report says
  (`cleanup/dlq-message-deletion.ts`; BR-RUA-048 step 8).
-/
import RefundStudy.Cleanup.StepAccount
import RefundStudy.Foundation.Environment

set_option autoImplicit false

namespace RefundStudy.Cleanup

open Foundation Record

variable {state : SweepState} {trace trace' : List CleanupExchange}
  {held : List ReceivedDlqMessage}

/-! ## Programs whose ports answer -/

def threw : CleanupExchange → Bool
  | ⟨.port _, .error _⟩ => true
  | _ => false

def PortsAnswer (trace : List CleanupExchange) : Prop :=
  ∀ exchange ∈ trace, threw exchange = false

/-- When every port answers, the program returns a value, and value and exchanges satisfy `Q`. -/
def Settling {α : Type} (m : CleanupM α) (Q : α → List CleanupExchange → Prop) : Prop :=
  ∀ state trace out, Traced (m.run.run state) trace out → PortsAnswer trace →
    ∃ value, out.1 = .ok value ∧ Q value trace

namespace Settling

variable {α β : Type} {Q : α → List CleanupExchange → Prop} {Q' : β → List CleanupExchange → Prop}

theorem pure {value : α} (h : Q value []) : Settling (Pure.pure value) Q := by
  intro state trace out htraced _
  cases htraced with
  | ret => exact ⟨value, rfl, h⟩

theorem bind {m : CleanupM α} {rest : α → CleanupM β} (hfirst : Settling m Q)
    (hrest : ∀ value front, Q value front →
      Settling (rest value) fun result back => Q' result (front ++ back)) :
    Settling (m >>= rest) Q' := by
  intro state trace out htraced hanswer
  obtain ⟨front, back, middle, rfl, hfront, hback⟩ := htraced.split
  obtain ⟨value, hok, hQ⟩ := hfirst state front middle hfront
    fun exchange hmem => hanswer exchange (List.mem_append_left _ hmem)
  obtain ⟨result, state'⟩ := middle
  obtain rfl : result = .ok value := hok
  exact hrest value front hQ state' back out hback
    fun exchange hmem => hanswer exchange (List.mem_append_right _ hmem)

theorem weaken {m : CleanupM α} {Q'' : α → List CleanupExchange → Prop} (h : Settling m Q)
    (hQ : ∀ value trace, Q value trace → Q'' value trace) : Settling m Q'' := by
  intro state trace out htraced hanswer
  obtain ⟨value, hok, hvalue⟩ := h state trace out htraced hanswer
  exact ⟨value, hok, hQ value trace hvalue⟩

theorem callPort {request : PortCall} {Q : PortReply request → List CleanupExchange → Prop}
    (h : ∀ reply : PortReply request, Q reply [⟨.port request, .ok reply⟩]) :
    Settling (callPort request) Q := by
  intro state trace out htraced hanswer
  obtain ⟨front, back, middle, rfl, hfront, hback⟩ := htraced.split
  cases hfront with
  | @call _ _ answer _ _ hrest =>
    cases hrest with
    | ret =>
      match answer with
      | .ok reply =>
        cases hback with
        | ret => exact ⟨reply, rfl, h reply⟩
      | .error thrown => cases hanswer ⟨.port request, .error thrown⟩ List.mem_cons_self

end Settling

/-! ## What the exchanges with a queue show -/

structure Receipt where
  queueUrl : String
  message : ReceivedDlqMessage

/-- How a queue is asked about a receipt. -/
def Receipt.handle (receipt : Receipt) : String × String :=
  (receipt.queueUrl, receipt.message.receiptHandle)

def receiptsBy : CleanupExchange → List Receipt
  | ⟨.port (.receive queueUrl), .ok (.messages messages)⟩ => messages.map (⟨queueUrl, ·⟩)
  | _ => []

def deletionsBy : CleanupExchange → List (String × String)
  | ⟨.port (.deleteMessage queueUrl handle), _⟩ => [(queueUrl, handle)]
  | _ => []

def failedDeletionsBy : CleanupExchange → List (String × String)
  | ⟨.port (.deleteMessage queueUrl handle), .ok (.failed _)⟩ => [(queueUrl, handle)]
  | _ => []

def releasesBy : CleanupExchange → List (String × String)
  | ⟨.port (.releaseMessage queueUrl handle), _⟩ => [(queueUrl, handle)]
  | _ => []

def receivedBy (queueUrl : String) : CleanupExchange → List DlqReceive
  | ⟨.port (.receive url), .ok received⟩ => if url = queueUrl then [received] else []
  | _ => []

def receiptsIn (trace : List CleanupExchange) : List Receipt := trace.flatMap receiptsBy

def deletionsIn (trace : List CleanupExchange) : List (String × String) := trace.flatMap deletionsBy

def failedDeletionsIn (trace : List CleanupExchange) : List (String × String) :=
  trace.flatMap failedDeletionsBy

def releasesIn (trace : List CleanupExchange) : List (String × String) := trace.flatMap releasesBy

def receivesIn (queueUrl : String) (trace : List CleanupExchange) : List DlqReceive :=
  trace.flatMap (receivedBy queueUrl)

section Append

variable (front back : List CleanupExchange)

@[simp] theorem receiptsIn_append :
    receiptsIn (front ++ back) = receiptsIn front ++ receiptsIn back := List.flatMap_append

@[simp] theorem deletionsIn_append :
    deletionsIn (front ++ back) = deletionsIn front ++ deletionsIn back := List.flatMap_append

@[simp] theorem failedDeletionsIn_append :
    failedDeletionsIn (front ++ back) = failedDeletionsIn front ++ failedDeletionsIn back :=
  List.flatMap_append

@[simp] theorem releasesIn_append :
    releasesIn (front ++ back) = releasesIn front ++ releasesIn back := List.flatMap_append

@[simp] theorem receivesIn_append (queueUrl : String) :
    receivesIn queueUrl (front ++ back) = receivesIn queueUrl front ++ receivesIn queueUrl back :=
  List.flatMap_append

end Append

def Receipt.captured (messageIds : List String) (receipt : Receipt) : Bool :=
  messageIds.contains receipt.message.messageId

/-- The account of some exchanges: the captured receipts are asked to be deleted, in order, and
the handles kept back are those of the other receipts and of the deletions that failed. -/
structure Accounted (messageIds : List String) (kept : List (String × String))
    (trace : List CleanupExchange) : Prop where
  deletions : deletionsIn trace =
    ((receiptsIn trace).filter (·.captured messageIds)).map Receipt.handle
  kept : kept.Perm (((receiptsIn trace).filter (!·.captured messageIds)).map Receipt.handle ++
    failedDeletionsIn trace)

theorem Accounted.append {messageIds : List String} {kept kept' : List (String × String)}
    (h : Accounted messageIds kept trace)
    (h' : Accounted messageIds kept' trace') :
    Accounted messageIds (kept ++ kept') (trace ++ trace') := by
  refine ⟨?_, ?_⟩
  · rw [deletionsIn_append, receiptsIn_append, List.filter_append, List.map_append, h.deletions,
      h'.deletions]
  · rw [receiptsIn_append, failedDeletionsIn_append, List.filter_append, List.map_append]
    refine (h.kept.append h'.kept).trans ?_
    rw [List.append_assoc, List.append_assoc]
    refine List.Perm.append_left _ ?_
    rw [← List.append_assoc, ← List.append_assoc]
    exact List.Perm.append_right _ List.perm_append_comm

/-! ## The state of a sweep -/

/-- Every captured id is pending, deleted or failed, and is one of them once. -/
structure SweepState.Partitions (state : SweepState) (messageIds : List String) : Prop where
  captured : state.captured = messageIds
  ids : (state.pending ++ state.deleted ++ state.failed.map (·.messageId)).Perm messageIds.dedup

section Settle

variable {state : SweepState} {messageIds : List String} {messageId : String}

theorem SweepState.Partitions.nodup_pending (h : state.Partitions messageIds) :
    state.pending.Nodup := by
  have hall := h.ids.nodup_iff.mpr (List.nodup_dedup messageIds)
  rw [List.append_assoc] at hall
  exact (List.nodup_append.mp hall).1

theorem SweepState.Partitions.mem_of_pending (h : state.Partitions messageIds)
    (hmem : messageId ∈ state.pending) : messageId ∈ messageIds := by
  refine List.mem_dedup.mp (h.ids.mem_iff.mp ?_)
  rw [List.append_assoc]
  exact List.mem_append_left _ hmem

theorem SweepState.Partitions.split_pending (h : state.Partitions messageIds)
    (hmem : messageId ∈ state.pending) :
    state.pending.Perm (messageId :: state.pending.filter (· != messageId)) := by
  rw [← h.nodup_pending.erase_eq_filter]
  exact List.perm_cons_erase hmem

theorem filter_pending_of_not_mem (hnot : messageId ∉ state.pending) :
    state.pending.filter (· != messageId) = state.pending := by
  refine List.filter_eq_self.mpr fun other hmem => ?_
  rw [bne_iff_ne]
  exact fun heq => hnot (heq ▸ hmem)

theorem SweepState.Partitions.settle (h : state.Partitions messageIds)
    {deletion : Option DlqMessageChange} (hasked : messageId ∈ messageIds → deletion ≠ none) :
    (state.settle messageId deletion).Partitions messageIds := by
  obtain ⟨hcaptured, hids⟩ := h
  have hwhole : state.Partitions messageIds := ⟨hcaptured, hids⟩
  unfold SweepState.settle
  by_cases hpending : messageId ∈ state.pending
  · have hcontains : state.pending.contains messageId = true := List.contains_iff_mem.mpr hpending
    have hsplit := hwhole.split_pending hpending
    dsimp only
    cases deletion with
    | none => exact absurd rfl (hasked (hwhole.mem_of_pending hpending))
    | some change =>
      cases change with
      | done =>
        dsimp only
        rw [if_pos hcontains]
        refine ⟨hcaptured, List.Perm.trans ?_ hids⟩
        refine List.Perm.append_right _ ?_
        rw [← List.append_assoc]
        refine (List.perm_append_singleton _ _).trans ?_
        exact List.Perm.append_right state.deleted hsplit.symm
      | failed reason =>
        dsimp only
        rw [if_pos hcontains]
        refine ⟨hcaptured, List.Perm.trans ?_ hids⟩
        rw [List.map_append, ← List.append_assoc]
        refine (List.perm_append_singleton _ _).trans ?_
        rw [List.append_assoc, List.append_assoc]
        exact List.Perm.append_right _ hsplit.symm
  · have hcontains : ¬ state.pending.contains messageId = true := fun heq =>
      hpending (List.contains_iff_mem.mp heq)
    dsimp only
    rw [filter_pending_of_not_mem hpending]
    cases deletion with
    | none => exact hwhole
    | some change =>
      cases change with
      | done =>
        dsimp only
        rw [if_neg hcontains]
        exact hwhole
      | failed reason =>
        dsimp only
        rw [if_neg hcontains]
        exact hwhole

end Settle

/-! ## One receive -/

def receiptsOf (queueUrl : String) (messages : List ReceivedDlqMessage) : List Receipt :=
  messages.map (⟨queueUrl, ·⟩)

/-- The exchanges that settle some received messages: captured ones are asked to be deleted, and
the kept ones are the others and those whose deletion failed. -/
structure Handled (messageIds : List String) (queueUrl : String)
    (messages kept : List ReceivedDlqMessage) (trace : List CleanupExchange) : Prop where
  receipts : receiptsIn trace = []
  releases : releasesIn trace = []
  receives : ∀ url, receivesIn url trace = []
  deletions : deletionsIn trace =
    ((receiptsOf queueUrl messages).filter (·.captured messageIds)).map Receipt.handle
  kept : ((receiptsOf queueUrl kept).map Receipt.handle).Perm
    (((receiptsOf queueUrl messages).filter (!·.captured messageIds)).map Receipt.handle ++
      failedDeletionsIn trace)

section Receive

variable {messageIds : List String} {queueUrl : String}

theorem Handled.nil : Handled messageIds queueUrl [] [] [] :=
  ⟨rfl, rfl, fun _ => rfl, rfl, List.Perm.refl _⟩

theorem Handled.append {messages messages' kept kept' : List ReceivedDlqMessage}
    (h : Handled messageIds queueUrl messages kept trace)
    (h' : Handled messageIds queueUrl messages' kept' trace') :
    Handled messageIds queueUrl (messages ++ messages') (kept ++ kept') (trace ++ trace') := by
  refine ⟨?_, ?_, fun url => ?_, ?_, ?_⟩
  · rw [receiptsIn_append, h.receipts, h'.receipts, List.append_nil]
  · rw [releasesIn_append, h.releases, h'.releases, List.append_nil]
  · rw [receivesIn_append, h.receives, h'.receives, List.append_nil]
  · rw [deletionsIn_append, h.deletions, h'.deletions, receiptsOf, receiptsOf, receiptsOf,
      List.map_append, List.filter_append, List.map_append]
  · rw [failedDeletionsIn_append, receiptsOf, receiptsOf, List.map_append, List.map_append,
      List.map_append, List.filter_append, List.map_append]
    refine (h.kept.append h'.kept).trans ?_
    rw [List.append_assoc, List.append_assoc]
    refine List.Perm.append_left _ ?_
    rw [← List.append_assoc, ← List.append_assoc]
    exact List.Perm.append_right _ List.perm_append_comm

theorem settleMessage_settling
    {message : ReceivedDlqMessage} (h : state.Partitions messageIds) :
    Settling (settleMessage queueUrl (state, held) message) fun next trace =>
      next.1.Partitions messageIds ∧ ∃ kept, next.2 = held ++ kept ∧
        Handled messageIds queueUrl [message] kept trace := by
  unfold settleMessage
  by_cases hcaptured : messageIds.contains message.messageId = true
  · rw [if_pos (show state.captured.contains message.messageId = true by rw [h.captured]; exact hcaptured)]
    have hmem : message.messageId ∈ messageIds := List.contains_iff_mem.mp hcaptured
    have hhere : (receiptsOf queueUrl [message]).filter (·.captured messageIds) =
        receiptsOf queueUrl [message] := by
      simp [receiptsOf, Receipt.captured, hmem]
    have hother : (receiptsOf queueUrl [message]).filter (!·.captured messageIds) = [] := by
      simp [receiptsOf, Receipt.captured, hmem]
    have hsettled : ∀ change,
        (state.settle message.messageId (some change)).Partitions messageIds :=
      fun change => h.settle fun _ heq => by cases heq
    refine Settling.bind (Settling.callPort (Q := fun deletion trace =>
      trace = [⟨.port (.deleteMessage queueUrl message.receiptHandle), .ok deletion⟩])
      fun _ => rfl) ?_
    rintro deletion _ rfl
    cases deletion with
    | done =>
      refine Settling.pure ⟨hsettled .done, [], (List.append_nil held).symm, rfl, rfl,
        fun _ => rfl, ?_, ?_⟩
      · rw [hhere]
        rfl
      · rw [hother]
        exact List.Perm.refl _
    | failed reason =>
      refine Settling.pure ⟨hsettled (.failed reason), [message], rfl, rfl, rfl, fun _ => rfl,
        ?_, ?_⟩
      · rw [hhere]
        rfl
      · rw [hother]
        exact List.Perm.refl _
  · rw [if_neg (show ¬ state.captured.contains message.messageId = true by rw [h.captured]; exact hcaptured)]
    have hnot : message.messageId ∉ messageIds := fun hmem =>
      hcaptured (List.contains_iff_mem.mpr hmem)
    have hhere : (receiptsOf queueUrl [message]).filter (·.captured messageIds) = [] := by
      simp [receiptsOf, Receipt.captured, hnot]
    have hother : (receiptsOf queueUrl [message]).filter (!·.captured messageIds) =
        receiptsOf queueUrl [message] := by
      simp [receiptsOf, Receipt.captured, hnot]
    have hsettled : (state.settle message.messageId none).Partitions messageIds :=
      h.settle fun hmem => absurd hmem hnot
    refine Settling.pure ⟨hsettled, [message], rfl, rfl, rfl, fun _ => rfl, ?_, ?_⟩
    · rw [hhere]
      rfl
    · rw [hother]
      exact List.Perm.refl _

theorem settleMessages_settling (messages : List ReceivedDlqMessage)
    (h : state.Partitions messageIds) :
    Settling (settleMessages queueUrl messages (state, held)) fun next trace =>
      next.1.Partitions messageIds ∧ ∃ kept, next.2 = held ++ kept ∧
        Handled messageIds queueUrl messages kept trace := by
  induction messages generalizing state held with
  | nil => exact Settling.pure ⟨h, [], (List.append_nil held).symm, Handled.nil⟩
  | cons message rest ih =>
    refine Settling.bind (settleMessage_settling h) ?_
    rintro ⟨state', held'⟩ front ⟨hstate, kept, rfl, hhandled⟩
    refine (ih hstate).weaken ?_
    rintro next back ⟨hnext, kept', hheld, hhandled'⟩
    refine ⟨hnext, kept ++ kept', ?_, hhandled.append hhandled'⟩
    rw [hheld, List.append_assoc]

end Receive

/-! ## One queue -/

/-- The last receive of this queue came back empty or found the queue gone. -/
def EndedEmpty (queueUrl : String) (trace : List CleanupExchange) : Prop :=
  (receivesIn queueUrl trace).getLast? = some (.messages []) ∨
    (receivesIn queueUrl trace).getLast? = some .queueAbsent

/-- The exchanges of a sweep up to some moment: the account with these messages kept back, and
this queue alone received from. -/
structure Swept (messageIds : List String) (queueUrl : String) (receives : Nat)
    (kept : List ReceivedDlqMessage) (trace : List CleanupExchange) : Prop where
  accounted : Accounted messageIds ((receiptsOf queueUrl kept).map Receipt.handle) trace
  releases : releasesIn trace = []
  receives : (receivesIn queueUrl trace).length ≤ receives
  others : ∀ url, url ≠ queueUrl → receivesIn url trace = []

section Queue

variable {messageIds : List String} {queueUrl : String}

theorem receivesIn_receive (received : DlqReceive) (trace : List CleanupExchange) :
    receivesIn queueUrl (⟨.port (.receive queueUrl), .ok received⟩ :: trace) =
      received :: receivesIn queueUrl trace := by
  change (if queueUrl = queueUrl then [received] else []) ++ receivesIn queueUrl trace = _
  rw [if_pos rfl]
  rfl

theorem receivesIn_other {url : String} (hne : url ≠ queueUrl) (received : DlqReceive)
    (trace : List CleanupExchange) :
    receivesIn url (⟨.port (.receive queueUrl), .ok received⟩ :: trace) = receivesIn url trace := by
  change (if queueUrl = url then [received] else []) ++ receivesIn url trace = _
  rw [if_neg (Ne.symm hne)]
  rfl

theorem Swept.quiet {receives : Nat} {received : DlqReceive}
    (hnone : receiptsBy ⟨.port (.receive queueUrl), .ok received⟩ = []) :
    Swept messageIds queueUrl (receives + 1) [] [⟨.port (.receive queueUrl), .ok received⟩] := by
  have hreceipts : receiptsIn [⟨.port (.receive queueUrl), .ok received⟩] = [] := by
    rw [receiptsIn, List.flatMap_singleton, hnone]
  refine ⟨⟨?_, ?_⟩, rfl, ?_, fun url hne => ?_⟩
  · rw [hreceipts]
    rfl
  · rw [hreceipts]
    exact List.Perm.refl _
  · rw [receivesIn_receive]
    exact Nat.succ_le_succ (Nat.zero_le _)
  · exact receivesIn_other hne received []

theorem Handled.swept {messages kept : List ReceivedDlqMessage} {trace : List CleanupExchange}
    (h : Handled messageIds queueUrl messages kept trace) :
    Swept messageIds queueUrl 1 kept
      (⟨.port (.receive queueUrl), .ok (.messages messages)⟩ :: trace) := by
  have hreceipts : receiptsIn (⟨.port (.receive queueUrl), .ok (.messages messages)⟩ :: trace) =
      receiptsOf queueUrl messages := by
    rw [receiptsIn, List.flatMap_cons]
    change receiptsOf queueUrl messages ++ receiptsIn trace = _
    rw [h.receipts, List.append_nil]
  refine ⟨⟨?_, ?_⟩, h.releases, ?_, fun url hne => ?_⟩
  · rw [hreceipts]
    exact h.deletions
  · rw [hreceipts]
    exact h.kept
  · rw [receivesIn_receive, h.receives]
    exact Nat.le_refl 1
  · rw [receivesIn_other hne]
    exact h.receives url

theorem Swept.append {receives receives' : Nat} {kept kept' : List ReceivedDlqMessage}
    (h : Swept messageIds queueUrl receives kept trace)
    (h' : Swept messageIds queueUrl receives' kept' trace') :
    Swept messageIds queueUrl (receives + receives') (kept ++ kept') (trace ++ trace') := by
  refine ⟨?_, ?_, ?_, fun url hne => ?_⟩
  · rw [receiptsOf, List.map_append, List.map_append]
    exact h.accounted.append h'.accounted
  · rw [releasesIn_append, h.releases, h'.releases, List.append_nil]
  · rw [receivesIn_append, List.length_append]
    exact Nat.add_le_add h.receives h'.receives
  · rw [receivesIn_append, h.others url hne, h'.others url hne, List.append_nil]

theorem EndedEmpty.append {front back : List CleanupExchange} (h : EndedEmpty queueUrl back) :
    EndedEmpty queueUrl (front ++ back) := by
  unfold EndedEmpty at h ⊢
  rw [receivesIn_append]
  have hlast : ∀ received, (receivesIn queueUrl back).getLast? = some received →
      (receivesIn queueUrl front ++ receivesIn queueUrl back).getLast? = some received := by
    intro received hback
    rw [List.getLast?_append, hback]
    rfl
  exact h.imp (hlast _) (hlast _)

theorem receiveUntilEmpty_settling (receives : Nat)
    (h : state.Partitions messageIds) :
    Settling (receiveUntilEmpty queueUrl receives (state, held)) fun result trace =>
      result.2.1.Partitions messageIds ∧ ∃ kept, result.2.2 = held ++ kept ∧
        Swept messageIds queueUrl receives kept trace ∧
        (result.1 = none → result.2.1.pending = [] ∨ EndedEmpty queueUrl trace) := by
  induction receives generalizing state held with
  | zero =>
    refine Settling.pure ⟨h, [], (List.append_nil held).symm,
      ⟨⟨rfl, List.Perm.refl _⟩, rfl, Nat.le_refl 0, fun _ _ => rfl⟩, fun heq => ?_⟩
    cases heq
  | succ receives ih =>
    refine Settling.bind (Settling.callPort (Q := fun received trace =>
      trace = [⟨.port (.receive queueUrl), .ok received⟩]) fun _ => rfl) ?_
    rintro received _ rfl
    match received with
    | .failed reason =>
      refine Settling.pure ⟨h, [], (List.append_nil held).symm, Swept.quiet rfl, fun heq => ?_⟩
      cases heq
    | .queueAbsent =>
      refine Settling.pure ⟨h, [], (List.append_nil held).symm, Swept.quiet rfl,
        fun _ => .inr (.inr ?_)⟩
      rw [List.append_nil, receivesIn_receive]
      rfl
    | .messages [] =>
      refine Settling.pure ⟨h, [], (List.append_nil held).symm, Swept.quiet rfl,
        fun _ => .inr (.inl ?_)⟩
      rw [List.append_nil, receivesIn_receive]
      rfl
    | .messages (message :: rest) =>
      refine Settling.bind (settleMessages_settling (message :: rest) h) ?_
      rintro ⟨state', held'⟩ front ⟨hstate, kept, rfl, hhandled⟩
      have hswept := hhandled.swept
      dsimp only
      split
      · rename_i hdone
        refine Settling.pure ⟨hstate, kept, rfl, ?_, fun _ => .inl (List.isEmpty_iff.mp hdone)⟩
        rw [List.append_nil]
        exact ⟨hswept.accounted, hswept.releases,
          Nat.le_trans hswept.receives (Nat.succ_le_succ (Nat.zero_le receives)), hswept.others⟩
      · refine (ih hstate).weaken ?_
        rintro result back ⟨hresult, kept', hheld, hswept', hended⟩
        refine ⟨hresult, kept ++ kept', ?_, ?_, fun hnone => (hended hnone).imp_right ?_⟩
        · rw [hheld, List.append_assoc]
        · rw [Nat.add_comm receives 1, ← List.append_assoc]
          exact hswept.append hswept'
        · intro hempty
          rw [← List.append_assoc]
          exact hempty.append

/-- `queueUrl.endsWith('.fifo')`. -/
def isFifoQueue (queueUrl : String) : Bool := ".fifo".toList.isSuffixOf queueUrl.toList

theorem releaseAll_settling (held : List ReceivedDlqMessage) :
    Settling (collect (releaseHeld queueUrl) held) fun _ trace =>
      releasesIn trace = (receiptsOf queueUrl held).map Receipt.handle ∧ receiptsIn trace = [] ∧
        deletionsIn trace = [] ∧ failedDeletionsIn trace = [] ∧ ∀ url, receivesIn url trace = [] := by
  induction held with
  | nil => exact Settling.pure ⟨rfl, rfl, rfl, rfl, fun _ => rfl⟩
  | cons message rest ih =>
    have hhere : Settling (releaseHeld queueUrl message) fun _ trace =>
        ∃ reply, trace = [⟨.port (.releaseMessage queueUrl message.receiptHandle), .ok reply⟩] := by
      refine Settling.bind (Settling.callPort (Q := fun reply trace =>
        trace = [⟨.port (.releaseMessage queueUrl message.receiptHandle), .ok reply⟩])
        fun _ => rfl) ?_
      rintro reply _ rfl
      exact Settling.pure ⟨reply, rfl⟩
    refine Settling.bind hhere ?_
    rintro _ _ ⟨reply, rfl⟩
    refine Settling.bind ih ?_
    rintro more back ⟨hreleases, hreceipts, hdeletions, hfailed, hreceives⟩
    refine Settling.pure ⟨?_, ?_, ?_, ?_, fun url => ?_⟩
    · rw [List.append_nil, releasesIn_append, hreleases]
      rfl
    · rw [List.append_nil, receiptsIn_append, hreceipts]
      rfl
    · rw [List.append_nil, deletionsIn_append, hdeletions]
      rfl
    · rw [List.append_nil, failedDeletionsIn_append, hfailed]
      rfl
    · rw [List.append_nil, receivesIn_append, hreceives]
      rfl

/-- The exchanges of the sweeps of some queues: everything kept back is released. -/
structure SweptAll (messageIds queueUrls : List String) (trace : List CleanupExchange) :
    Prop where
  accounted : Accounted messageIds (releasesIn trace) trace
  released : ∀ release ∈ releasesIn trace, release.1 ∈ queueUrls
  receives : ∀ url, (receivesIn url trace).length ≤ maxDlqReceivesPerQueue
  others : ∀ url, url ∉ queueUrls → receivesIn url trace = []

/-- The sweep of this queue proves that nothing is left in it: it ended empty, and no message of
a FIFO queue was held. -/
def ProvenEmpty (queueUrl : String) (trace : List CleanupExchange) : Prop :=
  EndedEmpty queueUrl trace ∧
    (isFifoQueue queueUrl = true → ∀ release ∈ releasesIn trace, release.1 ≠ queueUrl)

theorem sweepQueue_settling (h : state.Partitions messageIds) :
    Settling (sweepQueue queueUrl state) fun result trace =>
      result.2.Partitions messageIds ∧ SweptAll messageIds [queueUrl] trace ∧
        (result.1 = none → result.2.pending = [] ∨ ProvenEmpty queueUrl trace) := by
  refine Settling.bind (receiveUntilEmpty_settling maxDlqReceivesPerQueue h) ?_
  rintro ⟨gap, state', held⟩ front ⟨hstate, kept, hheld, hswept, hended⟩
  obtain rfl : held = kept := hheld
  refine Settling.bind (releaseAll_settling held) ?_
  rintro _ back ⟨hreleases, hreceipts, hdeletions, hfailed, hreceives⟩
  have hreleased : releasesIn (front ++ back) = (receiptsOf queueUrl held).map Receipt.handle := by
    rw [releasesIn_append, hswept.releases, hreleases]
    rfl
  have hall : SweptAll messageIds [queueUrl] (front ++ back) := by
    refine ⟨⟨?_, ?_⟩, fun release hmem => ?_, fun url => ?_, fun url hnot => ?_⟩
    · rw [deletionsIn_append, receiptsIn_append, hdeletions, hreceipts, List.append_nil,
        List.append_nil]
      exact hswept.accounted.deletions
    · rw [hreleased, receiptsIn_append, failedDeletionsIn_append, hreceipts, hfailed,
        List.append_nil, List.append_nil]
      exact hswept.accounted.kept
    · rw [hreleased, receiptsOf, List.map_map] at hmem
      obtain ⟨message, -, rfl⟩ := List.mem_map.mp hmem
      exact List.mem_singleton_self queueUrl
    · rw [receivesIn_append, hreceives, List.append_nil]
      by_cases hurl : url = queueUrl
      · rw [hurl]
        exact hswept.receives
      · rw [hswept.others url hurl]
        exact Nat.zero_le _
    · rw [receivesIn_append, hreceives, List.append_nil]
      exact hswept.others url fun heq => hnot (List.mem_singleton.mpr heq)
  have hempty : EndedEmpty queueUrl front → EndedEmpty queueUrl (front ++ back) := by
    unfold EndedEmpty
    rw [receivesIn_append, hreceives, List.append_nil]
    exact id
  split
  · rename_i hproved
    refine Settling.pure ?_
    rw [List.append_nil]
    refine ⟨hstate, hall, fun hnone => (hended hnone).imp_right fun hend => ⟨hempty hend, ?_⟩⟩
    intro hfifo release hmem
    obtain rfl : gap = none := hnone
    have hfifo' : ".fifo".toList.isSuffixOf queueUrl.toList = true := hfifo
    rw [hfifo', Bool.not_true, Bool.or_false] at hproved
    have hnothing : held = [] := List.isEmpty_iff.mp hproved
    rw [hreleased, hnothing] at hmem
    cases hmem
  · refine Settling.pure ?_
    rw [List.append_nil]
    refine ⟨hstate, hall, fun hnone => ?_⟩
    cases hnone

/-! ## Every queue -/

theorem sweepQueues_done (h : state.pending.isEmpty = true)
    (queueUrls : List String) (gaps : List StructuredReason) :
    sweepQueues queueUrls gaps state = pure (gaps, state) := by
  induction queueUrls with
  | nil => rfl
  | cons queueUrl rest ih =>
    unfold sweepQueues
    rw [if_pos h]
    exact ih

theorem SweptAll.append {queueUrls : List String} {front back : List CleanupExchange}
    (h : SweptAll messageIds [queueUrl] front) (h' : SweptAll messageIds queueUrls back)
    (hnew : queueUrl ∉ queueUrls) : SweptAll messageIds (queueUrl :: queueUrls) (front ++ back) := by
  refine ⟨?_, fun release hmem => ?_, fun url => ?_, fun url hnot => ?_⟩
  · rw [releasesIn_append]
    exact h.accounted.append h'.accounted
  · rw [releasesIn_append, List.mem_append] at hmem
    rcases hmem with hmem | hmem
    · exact List.mem_cons.mpr (.inl (List.mem_singleton.mp (h.released release hmem)))
    · exact List.mem_cons_of_mem _ (h'.released release hmem)
  · rw [receivesIn_append]
    by_cases hurl : url = queueUrl
    · rw [h'.others url (fun hmem => hnew (hurl ▸ hmem)), List.append_nil]
      exact h.receives url
    · rw [h.others url (fun hmem => hurl (List.mem_singleton.mp hmem)), List.nil_append]
      exact h'.receives url
  · rw [receivesIn_append, h'.others url (fun hmem => hnot (List.mem_cons_of_mem _ hmem)),
      h.others url (fun hmem => hnot (List.mem_cons.mpr (.inl (List.mem_singleton.mp hmem))))]
    rfl

theorem sweepQueues_settling (queueUrls : List String) (hdistinct : queueUrls.Nodup)
    {gaps : List StructuredReason} (h : state.Partitions messageIds) :
    Settling (sweepQueues queueUrls gaps state) fun result trace =>
      result.2.Partitions messageIds ∧ SweptAll messageIds queueUrls trace ∧
        (result.1 = [] → gaps = [] ∧
          (result.2.pending = [] ∨ ∀ url ∈ queueUrls, ProvenEmpty url trace)) := by
  induction queueUrls generalizing gaps state with
  | nil =>
    refine Settling.pure ⟨h, ⟨⟨rfl, List.Perm.refl _⟩, ?_, fun _ => Nat.zero_le _, fun _ _ => rfl⟩,
      fun hnone => ⟨hnone, .inr fun _ hmem => absurd hmem List.not_mem_nil⟩⟩
    exact fun _ hmem => absurd hmem List.not_mem_nil
  | cons queueUrl rest ih =>
    obtain ⟨hnew, hrest⟩ := List.nodup_cons.mp hdistinct
    by_cases hdone : state.pending.isEmpty = true
    · rw [sweepQueues_done hdone]
      refine Settling.pure ⟨h, ⟨⟨rfl, List.Perm.refl _⟩, ?_, fun _ => Nat.zero_le _,
        fun _ _ => rfl⟩, fun hnone => ⟨hnone, .inl (List.isEmpty_iff.mp hdone)⟩⟩
      exact fun _ hmem => absurd hmem List.not_mem_nil
    · unfold sweepQueues
      rw [if_neg hdone]
      refine Settling.bind (sweepQueue_settling h) ?_
      rintro ⟨gap, state'⟩ front ⟨hstate, hswept, hproved⟩
      by_cases hfinished : state'.pending.isEmpty = true
      · -- the queues after the last pending id are not swept
        dsimp only
        rw [sweepQueues_done hfinished]
        refine Settling.pure ⟨hstate, ?_, fun hnone => ?_⟩
        · rw [List.append_nil]
          exact ⟨hswept.accounted, fun release hmem =>
            List.mem_cons.mpr (.inl (List.mem_singleton.mp (hswept.released release hmem))),
            hswept.receives, fun url hnot => hswept.others url fun hmem =>
              hnot (List.mem_cons.mpr (.inl (List.mem_singleton.mp hmem)))⟩
        · exact ⟨(List.append_eq_nil_iff.mp hnone).1, .inl (List.isEmpty_iff.mp hfinished)⟩
      · refine (ih hrest hstate).weaken ?_
        rintro result back ⟨hresult, hswept', hgaps⟩
        refine ⟨hresult, hswept.append hswept' hnew, fun hnone => ?_⟩
        obtain ⟨hbefore, hrestProved⟩ := hgaps hnone
        obtain ⟨hgaps', hgap⟩ := List.append_eq_nil_iff.mp hbefore
        have hnogap : gap = none := by
          cases gap with
          | none => rfl
          | some reason => cases hgap
        have hhere : ProvenEmpty queueUrl front := by
          rcases hproved hnogap with hpending | hproven
          · exact absurd (List.isEmpty_iff.mpr hpending) hfinished
          · exact hproven
        refine ⟨hgaps', hrestProved.imp_right fun hproven url hmem => ?_⟩
        rcases List.mem_cons.mp hmem with rfl | hmem
        · refine ⟨?_, fun hfifo release hrelease => ?_⟩
          · unfold EndedEmpty
            rw [receivesIn_append, hswept'.others url hnew, List.append_nil]
            exact hhere.1
          · rw [releasesIn_append, List.mem_append] at hrelease
            rcases hrelease with hrelease | hrelease
            · exact hhere.2 hfifo release hrelease
            · exact fun heq => hnew (heq ▸ hswept'.released release hrelease)
        · refine ⟨(hproven url hmem).1.append, fun hfifo release hrelease => ?_⟩
          rw [releasesIn_append, List.mem_append] at hrelease
          rcases hrelease with hrelease | hrelease
          · intro heq
            have hqueue := List.mem_singleton.mp (hswept.released release hrelease)
            exact hnew (hqueue ▸ heq ▸ hmem)
          · exact (hproven url hmem).2 hfifo release hrelease

end Queue

theorem nodup_eraseDups (texts : List String) : texts.eraseDups.Nodup := by
  induction hlength : texts.length using Nat.strongRecOn generalizing texts with
  | ind length ih =>
    cases texts with
    | nil => exact List.nodup_nil
    | cons first rest =>
      rw [List.eraseDups_cons]
      have hshorter : (rest.filter fun other => !other == first).length < length := by
        rw [← hlength]
        exact Nat.lt_succ_of_le (List.length_filter_le _ _)
      refine List.nodup_cons.mpr ⟨fun hmem => ?_, ih _ hshorter _ rfl⟩
      have hfirst := (List.mem_filter.mp (List.mem_eraseDups.mp hmem)).2
      rw [beq_self_eq_true] at hfirst
      cases hfirst

theorem deleteCaptured_settling (queueUrls messageIds : List String) :
    Settling (deleteCaptured queueUrls messageIds) fun report trace =>
      (report.deleted ++ report.absent ++ report.failed.map (·.messageId)).Perm messageIds.dedup ∧
      SweptAll messageIds queueUrls.eraseDups trace ∧
      (report.absent ≠ [] → queueUrls ≠ [] ∧
        ∀ url ∈ queueUrls.eraseDups, ProvenEmpty url trace) := by
  have hstart : SweepState.Partitions ⟨messageIds, messageIds.dedup, [], []⟩ messageIds := by
    refine ⟨rfl, ?_⟩
    rw [List.append_nil]
    exact List.Perm.of_eq (List.append_nil _)
  refine Settling.bind (sweepQueues_settling queueUrls.eraseDups (nodup_eraseDups queueUrls)
    hstart) ?_
  rintro ⟨gaps, state⟩ trace ⟨hstate, hswept, hproved⟩
  have hsorted := List.perm_insertionSort (codeUnitsLe · ·) state.pending
  cases gaps with
  | nil =>
    obtain ⟨hunbound, hends⟩ := hproved rfl
    refine Settling.pure ?_
    rw [List.append_nil]
    refine ⟨List.Perm.trans ?_ hstate.ids, hswept, fun habsent => ⟨fun hnone => ?_, ?_⟩⟩
    · refine List.Perm.append_right _ ?_
      exact (List.Perm.append_left _ hsorted).trans List.perm_append_comm
    · rw [hnone] at hunbound
      cases hunbound
    · refine hends.resolve_left fun hnone => habsent ?_
      change state.pending.insertionSort (codeUnitsLe · ·) = []
      rw [hnone]
      rfl
  | cons gap more =>
    have htrace : trace ++ [] = trace := List.append_nil trace
    have hids : ∀ ids : List String, (ids.map fun messageId => FailedDlqMessage.mk messageId
        ⟨"DLQ_MESSAGE_NOT_PROVEN_ABSENT", messageId⟩).map (·.messageId) = ids := fun ids => by
      rw [List.map_map]
      exact List.map_id ids
    refine Settling.pure ?_
    rw [htrace]
    refine ⟨List.Perm.trans ?_ hstate.ids, hswept, fun habsent => absurd rfl habsent⟩
    rw [List.append_nil, List.map_append, hids, ← List.append_assoc, List.append_assoc _ state.deleted]
    exact List.perm_append_comm.trans (List.Perm.append_right _ hsorted)

/-! ## The whole deletion -/

/-- One deletion against queues that answer, whatever they answer. -/
def dlqDeletionRun (queueUrls messageIds : List String)
    (environment : Environment CleanupCall CleanupReply) (state : RunState) :
    List CleanupExchange × Except Thrown DlqDeletionReport × RunState :=
  ((deleteCaptured queueUrls messageIds).run.run state).against environment []

/-- For every list of captured ids, every list of queues and every behaviour of the queues, the
deletion returns a report.  It asks for the deletion of the captured messages it received, one
request for each receipt, and of no other; the ids it reports as deleted, absent and failed are
the captured ids, each once; it reports an id as absent only if some queue is bound and the
sweep of every bound queue ended in an empty receive or found the queue gone, with no message of
a FIFO queue held; what it received and did not delete it releases, once for each receipt; and it
receives from no queue more than `MAX_DLQ_RECEIVES_PER_QUEUE` times. -/
theorem captured_deletion_accounts (queueUrls messageIds : List String)
    (environment : Environment CleanupCall CleanupReply) (state : RunState)
    (hanswers : ∀ before request, ∃ reply, environment before (.port request) = .ok reply) :
    ∃ report trace state', dlqDeletionRun queueUrls messageIds environment state =
        (trace, .ok report, state') ∧
      deletionsIn trace = ((receiptsIn trace).filter (·.captured messageIds)).map Receipt.handle ∧
      (report.deleted ++ report.absent ++ report.failed.map (·.messageId)).Perm messageIds.dedup ∧
      (∀ messageId ∈ report.absent, queueUrls ≠ [] ∧ ∀ url ∈ queueUrls, ProvenEmpty url trace) ∧
      (releasesIn trace).Perm
        (((receiptsIn trace).filter (!·.captured messageIds)).map Receipt.handle ++
          failedDeletionsIn trace) ∧
      ∀ url, (receivesIn url trace).length ≤ maxDlqReceivesPerQueue := by
  have htraced := Program.against_traced environment
    ((deleteCaptured queueUrls messageIds).run.run state) []
  have hanswered : PortsAnswer (dlqDeletionRun queueUrls messageIds environment state).1 := by
    rintro ⟨request, answer⟩ hmem
    cases request with
    | port request =>
      obtain ⟨front, back, hsplit⟩ := List.append_of_mem hmem
      obtain ⟨reply, hreply⟩ := hanswers ([] ++ front) request
      obtain rfl : answer = .ok reply := (Program.against_answers hsplit).trans hreply
      rfl
    | append body | now | totalTargetExceeded => rfl
  obtain ⟨report, hok, hids, hswept, habsent⟩ :=
    deleteCaptured_settling queueUrls messageIds state _ _ htraced hanswered
  refine ⟨report, _, _, Prod.ext rfl (Prod.ext hok rfl), hswept.accounted.deletions, hids, ?_,
    hswept.accounted.kept, hswept.receives⟩
  intro messageId hmem
  obtain ⟨hbound, hproven⟩ := habsent (List.ne_nil_of_mem hmem)
  exact ⟨hbound, fun url hurl => hproven url (List.mem_eraseDups.mpr hurl)⟩

def calmReply : (request : PortCall) → PortReply request
  | .completeLateEvidenceCutoff _ => (⟨.succeeded, []⟩ : StepOutcome)
  | .freezeLateEvidenceAssessment _ => (⟨.succeeded, []⟩ : StepOutcome)
  | .capturePreCleanupSnapshot _ => (⟨.succeeded, []⟩ : StepOutcome)
  | .captureDlqEvidence _ => (⟨⟨.succeeded, []⟩, []⟩ : DlqCaptureReport)
  | .freezeResults _ _ => (⟨.succeeded, []⟩ : StepOutcome)
  | .requestDisable _ => ConsumerDisableRequest.absent
  | .readState _ => ConsumerStateRead.absent
  | .requestSafetyRelease _ => SafetyReleaseReport.notHeld none
  | .listRunning _ => (.ok [] : Except StructuredReason (List String))
  | .stop _ => DurableStopOutcome.notRunning
  | .receive _ => DlqReceive.messages []
  | .deleteMessage _ _ => DlqMessageChange.done
  | .releaseMessage _ _ => DlqMessageChange.done
  | .describe _ => StackRead.absent
  | .requestDelete _ => (none : Option StructuredReason)
  | .query _ => (.ok [] : Except StructuredReason (List DiscoveredResource))
  | .confirmPresence _ => PresenceCheck.absent
  | .delete _ => ResourceDeletion.alreadyAbsent
  | .audit => (⟨.clean, []⟩ : LeakAuditResult)
  | .sleep _ => ()

def mixedQueue : Environment CleanupCall CleanupReply
  | [], .port (.receive _) => .ok (.messages [⟨"captured", "first"⟩, ⟨"stranger", "second"⟩])
  | _, .port request => .ok (calmReply request)
  | _, .append _ => AppendResult.stopped
  | _, .now => (0 : UtcMillis)
  | _, .totalTargetExceeded => false

theorem mixedQueue_answers (before : List CleanupExchange) (request : PortCall) :
    ∃ reply, mixedQueue before (.port request) = .ok reply := by
  cases before with
  | nil => cases request <;> exact ⟨_, rfl⟩
  | cons first rest => exact ⟨_, rfl⟩

def mixedRun : List CleanupExchange × Except Thrown DlqDeletionReport × RunState :=
  dlqDeletionRun ["queue"] ["captured", "gone"] mixedQueue ⟨[], none, false, [], notAuditedResult⟩

theorem mixed_queue_accounted :
    deletionsIn mixedRun.1 = [("queue", "first")] ∧ releasesIn mixedRun.1 = [("queue", "second")] ∧
    mixedRun.2.1.toOption.map (·.absent) = some ["gone"] ∧
    ∃ report trace state', mixedRun = (trace, .ok report, state') ∧
      (report.deleted ++ report.absent ++ report.failed.map (·.messageId)).Perm
        ["captured", "gone"].dedup ∧
      ∀ messageId ∈ report.absent, ∀ url ∈ ["queue"], ProvenEmpty url trace := by
  refine ⟨by decide +kernel, by decide +kernel, by decide +kernel, ?_⟩
  obtain ⟨report, trace, state', hrun, -, hids, habsent, -⟩ :=
    captured_deletion_accounts ["queue"] ["captured", "gone"] mixedQueue
      ⟨[], none, false, [], notAuditedResult⟩ mixedQueue_answers
  exact ⟨report, trace, state', hrun, hids, fun messageId hmem => (habsent messageId hmem).2⟩

end RefundStudy.Cleanup
