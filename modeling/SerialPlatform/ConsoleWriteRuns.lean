import SerialPlatform.ConsoleQueue

/-!
# Runs of the write queue

On one connection each chunk goes onto the channel once and in the order of the queue, unless
the channel refuses a chunk inside of an operation, or the user takes an operation between two
of its chunks.
-/

namespace SerialPlatform.Console

open PortWrites (Goes IsNext)

/-- The operation of a Write of the port. -/
def PendingRequest.writeOf (port : String) : PendingRequest → Option (Option Uuid)
  | .write pending operationId => if pending = port then some operationId else none
  | _ => none

/-- The place of the chunk that a message carries to the port. -/
def ClientMessage.placeOf (port : String) : ClientMessage → Option ℕ
  | .write _ target _ chunk => if target = port then some chunk.place else none
  | _ => none

namespace App

/-- The queue of a port as a part of the console. -/
def writes (app : App) (port : String) : PortWrites where
  queue := app.queue port
  progress := app.inflightWrites port
  writing := app.pendingRequests.filterMap fun entry => entry.2.writeOf port
  sent := app.outbound.filterMap (ClientMessage.placeOf port)

/-- The queues of all ports are sound, and request ids are used once. -/
structure Sound (app : App) : Prop where
  writes : ∀ port, (app.writes port).Sound app.queued
  fresh : ∀ entry ∈ app.pendingRequests, entry.1 < app.nextRequest
  distinct : (app.pendingRequests.map Prod.fst).Nodup

section

variable {app : App} {accepts : Bool} {port : String} {requestId : Uuid} {pending : PendingRequest}

theorem nextWrite_eq (app : App) (port : String) : app.nextWrite port = (app.writes port).next := rfl

/-! ## Requests -/

theorem writing_eq_false_iff : app.writing port = false ↔ (app.writes port).writing = [] := by
  unfold App.writing writes
  simp only [List.any_eq_false, List.filterMap_eq_nil_iff]
  refine forall₂_congr fun entry _ => ?_
  cases entry.2 <;> simp [PendingRequest.writeOf]

theorem request_mem (h : app.request requestId = some pending) :
    (requestId, pending) ∈ app.pendingRequests := by
  obtain ⟨entry, hfind, rfl⟩ := Option.map_eq_some_iff.1 h
  have hid := List.find?_some hfind
  rw [decide_eq_true_eq] at hid
  rw [← hid]
  exact List.mem_of_find?_eq_some hfind

/-- An entry with the id is the request of the id. -/
theorem Sound.request_eq (h : app.Sound) {entry : Uuid × PendingRequest}
    (hmem : entry ∈ app.pendingRequests) : app.request entry.1 = some entry.2 := by
  unfold request
  cases hfind : app.pendingRequests.find? fun other => other.1 = entry.1 with
  | none =>
      rw [List.find?_eq_none] at hfind
      exact absurd (hfind entry hmem) (by simp)
  | some other =>
      have hid := List.find?_some hfind
      rw [decide_eq_true_eq] at hid
      have hother := List.mem_of_find?_eq_some hfind
      rw [List.inj_on_of_nodup_map h.distinct hother hmem hid]
      rfl

theorem filterMap_filter_eq {α β : Type} {p : α → Bool} {f : α → Option β} {items : List α}
    (h : ∀ item ∈ items, p item = false → f item = none) :
    (items.filter p).filterMap f = items.filterMap f := by
  rw [List.filterMap_filter]
  refine List.filterMap_congr fun item hitem => ?_
  cases hp : p item with
  | true => simp
  | false => simp [h item hitem hp]

/-- An answer to a request which is no Write of the port leaves its queue alone. -/
theorem Sound.writes_answered (h : app.Sound)
    (hother : ∀ operationId, app.request requestId ≠ some (.write port operationId)) :
    (app.answered requestId).writes port = app.writes port := by
  have hrequests : (app.pendingRequests.filter fun entry => entry.1 ≠ requestId).filterMap
      (fun entry => entry.2.writeOf port) =
      app.pendingRequests.filterMap fun entry => entry.2.writeOf port := by
    refine filterMap_filter_eq fun entry hentry hid => ?_
    have hsame : entry.1 = requestId := by simpa using hid
    have hrequest := h.request_eq hentry
    rw [hsame] at hrequest
    cases hwrite : entry.2 with
    | write target operationId =>
        have hne : target ≠ port := by
          rintro rfl
          exact hother operationId (by rw [hrequest, hwrite])
        simp [PendingRequest.writeOf, hne]
    | _ => rfl
  unfold App.writes App.answered
  rw [hrequests]
  rfl

theorem two_le_length_filterMap {α β : Type} {f : α → Option β} {items : List α} {a b : α}
    (ha : a ∈ items) (hb : b ∈ items) (hne : a ≠ b) (hfa : (f a).isSome) (hfb : (f b).isSome) :
    2 ≤ (items.filterMap f).length := by
  obtain ⟨before, after, rfl⟩ := List.append_of_mem ha
  obtain ⟨x, hx⟩ := Option.isSome_iff_exists.1 hfa
  obtain ⟨y, hy⟩ := Option.isSome_iff_exists.1 hfb
  have hb : b ∈ before ∨ b ∈ after := by
    rcases List.mem_append.1 hb with hbefore | hrest
    · exact .inl hbefore
    · rcases List.mem_cons.1 hrest with rfl | hafter
      · exact absurd rfl hne
      · exact .inr hafter
  rw [List.filterMap_append, List.filterMap_cons_some hx, List.length_append, List.length_cons]
  rcases hb with hbefore | hafter
  · have hpos := List.length_pos_of_mem (List.mem_filterMap.2 ⟨b, hbefore, hy⟩)
    omega
  · have hpos := List.length_pos_of_mem (List.mem_filterMap.2 ⟨b, hafter, hy⟩)
    omega

/-- The answer to the Write of a port takes it from under way. -/
theorem Sound.writes_answered_write (h : app.Sound) {operationId : Option Uuid}
    (hrequest : app.request requestId = some (.write port operationId)) :
    (app.answered requestId).writes port =
        ⟨(app.writes port).queue, (app.writes port).progress, [], (app.writes port).sent⟩ ∧
      (app.writes port).writing.length = 1 := by
  have hmem := request_mem hrequest
  have hsome : (PendingRequest.writeOf port (.write port operationId)).isSome := by
    simp [PendingRequest.writeOf]
  have hsingle := (h.writes port).single
  have hnone : (app.pendingRequests.filter fun entry => entry.1 ≠ requestId).filterMap
      (fun entry => entry.2.writeOf port) = [] := by
    rw [List.filterMap_eq_nil_iff]
    intro entry hentry
    obtain ⟨hentry, hid⟩ := List.mem_filter.1 hentry
    by_contra hwrite
    have hne : entry ≠ (requestId, .write port operationId) := by
      rintro rfl
      simp at hid
    have htwo := @two_le_length_filterMap _ _ (fun entry => PendingRequest.writeOf port entry.2) _ _ _
      hentry hmem hne (Option.isSome_iff_ne_none.2 hwrite) hsome
    exact absurd (htwo.trans hsingle) (by decide)
  refine ⟨?_, ?_⟩
  · have hwrites : (app.answered requestId).writes port =
        ⟨app.queue port, app.inflightWrites port,
          (app.pendingRequests.filter fun entry => entry.1 ≠ requestId).filterMap
            fun entry => entry.2.writeOf port, (app.writes port).sent⟩ := rfl
    rw [hwrites, hnone]
    rfl
  · have hpos : 0 < (app.writes port).writing.length := by
      obtain ⟨found, hfound⟩ := Option.isSome_iff_exists.1 hsome
      exact List.length_pos_of_mem (List.mem_filterMap.2 ⟨_, hmem, hfound⟩)
    omega

theorem Sound.writes_answered_of_ne (h : app.Sound) {operationId : Option Uuid} {other : String}
    (hrequest : app.request requestId = some (.write port operationId)) (hother : other ≠ port) :
    (app.answered requestId).writes other = app.writes other := by
  refine h.writes_answered fun id hid => hother ?_
  rw [hrequest] at hid
  cases hid
  rfl

theorem Sound.answered_ids (h : app.Sound) :
    (∀ entry ∈ (app.answered requestId).pendingRequests, entry.1 < app.nextRequest) ∧
      ((app.answered requestId).pendingRequests.map Prod.fst).Nodup :=
  ⟨fun entry hentry => h.fresh entry (List.mem_of_mem_filter hentry),
    h.distinct.sublist (List.filter_sublist.map _)⟩

/-- An answer which is to no Write. -/
theorem Sound.answered (h : app.Sound)
    (hother : ∀ port operationId, app.request requestId ≠ some (.write port operationId)) :
    (app.answered requestId).Sound where
  writes := fun port => by
    rw [h.writes_answered (hother port)]
    exact h.writes port
  fresh := h.answered_ids.1
  distinct := h.answered_ids.2

/-! ## Messages -/

theorem sendMessage_eq_some {message : Uuid → ClientMessage} {sent : App}
    (h : app.sendMessage accepts message pending = some sent) :
    sent = { app with
      outbound := app.outbound ++ [message app.nextRequest]
      pendingRequests := app.pendingRequests ++ [(app.nextRequest, pending)]
      nextRequest := app.nextRequest + 1 } := by
  unfold sendMessage at h
  split_ifs at h
  exact (Option.some.inj h).symm

/-- A message with its request, which is fresh. -/
theorem Sound.ids_send (h : app.Sound) (pending : PendingRequest) :
    (∀ entry ∈ app.pendingRequests ++ [(app.nextRequest, pending)],
        entry.1 < app.nextRequest + 1) ∧
      ((app.pendingRequests ++ [(app.nextRequest, pending)]).map Prod.fst).Nodup := by
  constructor
  · intro entry hentry
    rcases List.mem_append.1 hentry with hold | hnew
    · exact Nat.lt_succ_of_lt (h.fresh entry hold)
    · rw [List.mem_singleton.1 hnew]
      exact Nat.lt_succ_self _
  · rw [List.map_append, List.nodup_append]
    refine ⟨h.distinct, List.nodup_singleton _, fun id hid other hother => ?_⟩
    obtain ⟨entry, hentry, rfl⟩ := List.mem_map.1 hid
    rw [List.map_singleton, List.mem_singleton] at hother
    rw [hother]
    exact (h.fresh entry hentry).ne

/-- A message which is no Write leaves the queues alone. -/
theorem Sound.sendMessage (h : app.Sound) {message : Uuid → ClientMessage} {sent : App}
    (hmessage : ∀ port id, (message id).placeOf port = none)
    (hpending : ∀ port, pending.writeOf port = none)
    (hsent : app.sendMessage accepts message pending = some sent) :
    sent.Sound ∧ ∀ port, sent.writes port = app.writes port := by
  have hids := h.ids_send pending
  have hsame : ∀ port, sent.writes port = app.writes port := by
    intro port
    rw [sendMessage_eq_some hsent]
    simp [App.writes, App.queue, List.filterMap_append, hmessage, hpending]
  refine ⟨⟨fun port => ?_, ?_, ?_⟩, hsame⟩
  · rw [hsame port]
    have hqueued : sent.queued = app.queued := by rw [sendMessage_eq_some hsent]
    rw [hqueued]
    exact h.writes port
  · rw [sendMessage_eq_some hsent]
    exact hids.1
  · rw [sendMessage_eq_some hsent]
    exact hids.2

/-! ## Flushing -/

/-- The first operation stands between two of its chunks. -/
def BetweenChunks (app : App) (port : String) : Prop :=
  app.writing port = false ∧ ∃ progress, app.inflightWrites port = some progress ∧
    1 ≤ progress.chunkIndex

/-- A flush is refused a chunk inside of an operation. -/
def Stalls (app : App) (accepts : Bool) (port : String) : Prop :=
  port ∈ app.ports ∧ app.mayWrite port = true ∧ app.canSend accepts = false ∧
    app.BetweenChunks port

theorem ownsControl_of_mayWrite (h : app.mayWrite port = true) :
    ∃ lease, (app.views port).control = some lease := by
  unfold mayWrite at h
  simp only [Bool.and_eq_true] at h
  have howns := h.1.2
  unfold ownsControl at howns
  split at howns
  · exact ⟨_, ‹_›⟩
  · cases howns

/-- A chunk goes onto the channel, with its record. -/
def sendWrite (app : App) (port : String) (progress : InFlightWrite) (lease : ControlLease)
    (chunk : PendingWrite) : App :=
  { app.setProgress port (some progress) with
    outbound := app.outbound ++ [.write app.nextRequest port lease chunk]
    pendingRequests := app.pendingRequests ++ [(app.nextRequest, .write port chunk.operationId)]
    nextRequest := app.nextRequest + 1 }

theorem writes_sendWrite (app : App) (port : String) (progress : InFlightWrite)
    (lease : ControlLease) (chunk : PendingWrite) (other : String) :
    (app.sendWrite port progress lease chunk).writes other =
      if other = port then (app.writes port).send progress chunk else app.writes other := by
  split_ifs with hother
  · subst hother
    simp [App.writes, PortWrites.send, App.queue, App.setProgress, sendWrite,
      List.filterMap_append, PendingRequest.writeOf, ClientMessage.placeOf]
  · have hne : port ≠ other := fun h => hother h.symm
    simp [App.writes, App.queue, App.setProgress, sendWrite, List.filterMap_append,
      PendingRequest.writeOf, ClientMessage.placeOf, hne, Function.update_of_ne hother]

/-- A flush with a chunk to send sends it, or is refused. -/
theorem flush_eq {progress : InFlightWrite} {chunk : PendingWrite} (hport : port ∈ app.ports)
    (hmay : app.mayWrite port = true) (hwriting : app.writing port = false)
    (hnext : app.nextWrite port = some (progress, chunk)) :
    (∃ lease, app.canSend accepts = true ∧
      (app.flushPendingWrites accepts port).2 = app.sendWrite port progress lease chunk) ∨
    app.canSend accepts = false ∧
      (app.flushPendingWrites accepts port).2 = app.setProgress port none := by
  obtain ⟨lease, hlease⟩ := ownsControl_of_mayWrite hmay
  have hsend : (app.setProgress port (some progress)).sendWriteNow accepts port chunk =
      if app.canSend accepts then some (app.sendWrite port progress lease chunk) else none := by
    have hcontrol : ((app.setProgress port (some progress)).views port).control = some lease :=
      hlease
    unfold sendWriteNow
    rw [hcontrol]
    exact if_pos hport
  unfold flushPendingWrites
  rw [if_neg (not_not.2 hport), if_neg (by simp [hmay]), if_neg (by simp [hwriting]), hnext]
  dsimp only
  rw [hsend]
  cases app.canSend accepts with
  | true => exact .inl ⟨lease, rfl, rfl⟩
  | false => exact .inr ⟨rfl, rfl⟩

/-- What a flush does: nothing, or it sends the next chunk, or this is refused. -/
theorem flush_cases (app : App) (accepts : Bool) (port : String) :
    (app.flushPendingWrites accepts port).2 = app ∨
    ∃ progress chunk, port ∈ app.ports ∧ app.mayWrite port = true ∧
      app.writing port = false ∧ app.nextWrite port = some (progress, chunk) ∧
      ((∃ lease, app.canSend accepts = true ∧
        (app.flushPendingWrites accepts port).2 = app.sendWrite port progress lease chunk) ∨
      app.canSend accepts = false ∧
        (app.flushPendingWrites accepts port).2 = app.setProgress port none) := by
  by_cases hport : port ∈ app.ports
  · cases hmay : app.mayWrite port with
    | false =>
        left
        rw [flushPendingWrites, if_neg (not_not.2 hport), if_pos hmay]
    | true =>
        cases hwriting : app.writing port with
        | true =>
            left
            rw [flushPendingWrites, if_neg (not_not.2 hport), if_neg (by simp [hmay]),
              if_pos hwriting]
        | false =>
            cases hnext : app.nextWrite port with
            | none =>
                left
                rw [flushPendingWrites, if_neg (not_not.2 hport), if_neg (by simp [hmay]),
                  if_neg (by simp [hwriting]), hnext]
            | some found =>
                exact .inr ⟨found.1, found.2, hport, rfl, rfl, rfl,
                  flush_eq hport hmay hwriting hnext⟩
  · left
    rw [flushPendingWrites, if_pos hport]

theorem setProgress_none (h : app.inflightWrites port = none) : app.setProgress port none = app := by
  unfold setProgress
  rw [← h, Function.update_eq_self]

/-- A flush keeps the queues sound, unless it is refused a chunk inside of an operation. -/
theorem Sound.flush (h : app.Sound) (hstalls : ¬ app.Stalls accepts port) :
    (app.flushPendingWrites accepts port).2.Sound := by
  rcases app.flush_cases accepts port with heq | ⟨progress, chunk, hport, hmay, hwriting,
    hnext, ⟨lease, -, heq⟩ | ⟨hrefused, heq⟩⟩
  · rw [heq]
    exact h
  · rw [heq]
    have hids := h.ids_send (.write port chunk.operationId)
    refine ⟨fun other => ?_, hids.1, hids.2⟩
    rw [writes_sendWrite]
    split_ifs with hother
    · exact (h.writes port).send (writing_eq_false_iff.1 hwriting) hnext
    · exact h.writes other
  · -- only a first chunk is refused here, and of it there is no record
    have hnone : app.inflightWrites port = none := by
      by_contra hsome
      obtain ⟨found, hfound⟩ := Option.ne_none_iff_exists'.1 hsome
      have hgoes := (h.writes port).goes found hfound
      exact hstalls ⟨hport, hmay, hrefused, hwriting, found, hfound,
        hgoes.begun (writing_eq_false_iff.1 hwriting)⟩
    rw [heq, setProgress_none hnone]
    exact h

/-- A flush that nothing hinders sends the next chunk of a queue. -/
theorem Sound.flush_sends (h : app.Sound) (hport : port ∈ app.ports)
    (hmay : app.mayWrite port = true) (hwriting : app.writing port = false)
    (hqueue : app.queue port ≠ []) (hsend : app.canSend accepts = true) :
    ∃ lease chunk, (app.flushPendingWrites accepts port).2.outbound =
        app.outbound ++ [.write app.nextRequest port lease chunk] ∧
      (app.writes port).IsNext chunk := by
  obtain ⟨progress, chunk, hnext, hchunk⟩ :=
    (h.writes port).exists_next (writing_eq_false_iff.1 hwriting) hqueue
  rcases flush_eq hport hmay hwriting hnext with ⟨lease, -, heq⟩ | ⟨hrefused, -⟩
  · exact ⟨lease, chunk, by rw [heq]; rfl, hchunk⟩
  · rw [hsend] at hrefused
    cases hrefused

/-! ## Changes of a queue -/

theorem writes_setQueue (app : App) (port : String) (queue : Option (List PendingWrite))
    (other : String) : (app.setQueue port queue).writes other =
      if other = port then ⟨queue.getD [], app.inflightWrites port, (app.writes port).writing,
        (app.writes port).sent⟩
      else app.writes other := by
  split_ifs with hother
  · subst hother
    simp [App.writes, App.queue, App.setQueue]
  · simp [App.writes, App.queue, App.setQueue, Function.update_of_ne hother]

theorem writes_setRest (app : App) (port : String) (rest : List PendingWrite) (other : String) :
    (app.setRest port rest).writes other =
      if other = port then ⟨rest, app.inflightWrites port, (app.writes port).writing,
        (app.writes port).sent⟩
      else app.writes other := by
  have hrest : (if rest = [] then none else some rest : Option (List PendingWrite)).getD [] =
      rest := by
    split_ifs with hnil
    · exact hnil.symm
    · rfl
  unfold setRest
  rw [writes_setQueue, hrest]

theorem queue_setRest (app : App) (port : String) (rest : List PendingWrite) :
    (app.setRest port rest).queue port = rest := by
  have hwrites := congrArg PortWrites.queue (app.writes_setRest port rest port)
  rwa [if_pos rfl] at hwrites

theorem writes_setProgress (app : App) (port : String) (progress : Option InFlightWrite)
    (other : String) : (app.setProgress port progress).writes other =
      if other = port then ⟨app.queue port, progress, (app.writes port).writing,
        (app.writes port).sent⟩
      else app.writes other := by
  split_ifs with hother
  · subst hother
    simp [App.writes, App.queue, App.setProgress]
  · simp [App.writes, App.queue, App.setProgress, Function.update_of_ne hother]

theorem writes_discard (app : App) (port : String) (other : String) :
    (app.discard port).writes other =
      if other = port then (app.writes port).discard else app.writes other := by
  unfold App.discard
  rw [writes_setProgress]
  split_ifs with hother
  · subst hother
    simp [App.queue, App.setQueue, PortWrites.discard, App.writes]
  · rw [writes_setQueue, if_neg hother]

theorem Sound.discard (h : app.Sound) (port : String) : (app.discard port).Sound where
  writes := fun other => by
    rw [writes_discard]
    split_ifs
    · exact (h.writes port).discard
    · exact h.writes other
  fresh := h.fresh
  distinct := h.distinct

theorem writes_acknowledge_of_ne (app : App) {port other : String} (hother : other ≠ port) :
    (app.acknowledgeInflightWrite port).writes other = app.writes other := by
  unfold acknowledgeInflightWrite
  split
  · rfl
  · dsimp only
    split_ifs
    · rw [writes_setProgress, if_neg hother]
    · rw [writes_setProgress, if_neg hother, writes_setRest, if_neg hother]

/-- The queue of a port after the acknowledgement of its Write. -/
theorem Sound.writes_acknowledged (h : app.Sound) {operationId : Option Uuid}
    (hrequest : app.request requestId = some (.write port operationId)) :
    ((app.answered requestId).acknowledgeInflightWrite port).writes port =
      (app.writes port).acknowledge := by
  have hport := (h.writes_answered_write hrequest).1
  have hwriting := congrArg PortWrites.writing hport
  have hsent := congrArg PortWrites.sent hport
  have hprogress : (app.answered requestId).inflightWrites port = (app.writes port).progress := rfl
  have hqueue : (app.answered requestId).queue port = (app.writes port).queue := rfl
  unfold acknowledgeInflightWrite PortWrites.acknowledge
  rw [hprogress]
  cases hfound : (app.writes port).progress with
  | none =>
      dsimp only
      rw [hport, hfound]
  | some progress =>
      dsimp only
      rw [hqueue]
      by_cases hsame : ((app.writes port).queue[progress.chunkIndex + 1]?).any fun write =>
          write.operationId = progress.operationId ∧ write.kind = progress.kind
      · rw [if_pos hsame, if_pos hsame, writes_setProgress, if_pos rfl, hwriting, hsent, hqueue]
      · have hrest := (app.answered requestId).queue_setRest port
          ((app.writes port).queue.drop (progress.chunkIndex + 1))
        rw [if_neg hsame, if_neg hsame, writes_setProgress, if_pos rfl, writes_setRest, if_pos rfl,
          hwriting, hsent, hrest]

theorem Sound.acknowledged (h : app.Sound) {operationId : Option Uuid}
    (hrequest : app.request requestId = some (.write port operationId)) :
    ((app.answered requestId).acknowledgeInflightWrite port).Sound := by
  have hids := @Sound.answered_ids _ requestId h
  have hsame : ∀ app' : App, (app'.acknowledgeInflightWrite port).queued = app'.queued ∧
      (app'.acknowledgeInflightWrite port).pendingRequests = app'.pendingRequests ∧
      (app'.acknowledgeInflightWrite port).nextRequest = app'.nextRequest := by
    intro app'
    unfold acknowledgeInflightWrite
    split
    · exact ⟨rfl, rfl, rfl⟩
    · dsimp only
      split_ifs <;> exact ⟨rfl, rfl, rfl⟩
  obtain ⟨hqueued, hrequests, hnext⟩ := hsame (app.answered requestId)
  refine ⟨fun other => ?_, ?_, ?_⟩
  · rw [hqueued]
    by_cases hother : other = port
    · rw [hother, h.writes_acknowledged hrequest]
      exact (h.writes port).acknowledge (h.writes_answered_write hrequest).2
    · rw [writes_acknowledge_of_ne _ hother, h.writes_answered_of_ne hrequest hother]
      exact h.writes other
  · rw [hrequests, hnext]
    exact hids.1
  · rw [hrequests]
    exact hids.2

/-- A Write or an Acquire which fails takes the queue of its port along. -/
theorem Sound.handleError (h : app.Sound) : (app.handleError requestId).Sound := by
  unfold App.handleError
  split
  next port operationId hrequest =>
    refine ⟨fun other => ?_, h.answered_ids.1, h.answered_ids.2⟩
    rw [writes_discard]
    split_ifs with hother
    · have hport := (h.writes_answered_write hrequest).1
      have hfail : (((app.answered requestId).setQueuedControl port false).writes port).discard =
          (app.writes port).fail := by
        change ((app.answered requestId).writes port).discard = _
        rw [hport]
        rfl
      rw [hfail]
      exact (h.writes port).fail
    · change ((app.answered requestId).writes other).Sound app.queued
      rw [h.writes_answered_of_ne hrequest hother]
      exact h.writes other
  next port hrequest =>
    have hanswered : (app.answered requestId).Sound := h.answered fun port id hid => by
      rw [hrequest] at hid
      cases hid
    have hqueued : ((app.answered requestId).setQueuedControl port false).Sound :=
      ⟨hanswered.writes, hanswered.fresh, hanswered.distinct⟩
    exact hqueued.discard port
  next hnot _ =>
    exact h.answered fun port id hid => hnot port id hid

/-- The Acquires of a port are no Writes. -/
theorem Sound.dropAcquires (h : app.Sound) (port : String) : (app.dropAcquires port).Sound := by
  have hsame : ∀ other, (app.dropAcquires port).writes other = app.writes other := by
    intro other
    have hrequests : (app.pendingRequests.filter fun entry => entry.2 ≠ .acquire port).filterMap
        (fun entry => entry.2.writeOf other) =
        app.pendingRequests.filterMap fun entry => entry.2.writeOf other := by
      refine filterMap_filter_eq fun entry _ hentry => ?_
      have hacquire : entry.2 = .acquire port := by simpa using hentry
      rw [hacquire]
      rfl
    unfold App.writes App.dropAcquires
    rw [hrequests]
    rfl
  refine ⟨fun other => ?_, fun entry hentry => h.fresh entry (List.mem_of_mem_filter hentry),
    h.distinct.sublist (List.filter_sublist.map _)⟩
  rw [hsame]
  exact h.writes other

theorem Sound.cancelQueuedControl (h : app.Sound) (accepts : Bool) (port : String) :
    (app.cancelQueuedControl accepts port).Sound := by
  unfold App.cancelQueuedControl
  split
  · exact h
  next sent hsent =>
    have hsound := (h.sendMessage (by intros; rfl) (by intros; rfl) hsent).1.discard port
    have hqueued : ((sent.discard port).setQueuedControl port false).Sound :=
      ⟨hsound.writes, hsound.fresh, hsound.distinct⟩
    exact hqueued.dropAcquires port

theorem Sound.releaseControl (h : app.Sound) (accepts : Bool) :
    (app.releaseControl accepts).Sound := by
  unfold App.releaseControl
  dsimp only
  split_ifs
  · exact h
  · exact h.cancelQueuedControl accepts _
  · split
    · exact h
    · exact h
  · split
    · exact h
    next lease _ =>
      have hdiscard := h.discard app.selectedPort
      unfold App.releaseSlotControl
      split_ifs
      · exact hdiscard
      · cases hsent : App.sendMessage _ accepts
            (fun id => .releaseControl id app.selectedPort lease) (.release app.selectedPort) with
        | none => exact hdiscard
        | some sent => exact (hdiscard.sendMessage (by intros; rfl) (by intros; rfl) hsent).1

/-! ## Requests of the user -/

theorem places_chunksFrom (place : ℕ) (data : Bytes) (operationId : Option Uuid)
    (kind : PendingWriteKind) :
    (chunksFrom place data operationId kind).map PendingWrite.place =
      List.range' place (chunksFrom place data operationId kind).length := by
  unfold chunksFrom
  rw [List.map_map, List.length_map, List.length_zipIdx]
  have hplace : PendingWrite.place ∘ (fun entry : Bytes × ℕ =>
      (⟨entry.1, operationId, kind, place + entry.2⟩ : PendingWrite)) =
      (place + ·) ∘ Prod.snd := rfl
  rw [hplace, ← List.map_map, List.zipIdx_map_snd, List.range'_eq_map_range]
  simp [List.range'_eq_map_range]

/-- The candidate is the queue with new chunks behind it, placed one after the other. -/
theorem candidate_eq (app : App) (writes : List (Bytes × Option Uuid)) (kind : PendingWriteKind) :
    ∃ chunks, (app.candidate writes kind).1 = app.queue app.selectedPort ++ chunks ∧
      (app.candidate writes kind).2 = app.queued + chunks.length ∧
      chunks.map PendingWrite.place = List.range' app.queued chunks.length := by
  unfold candidate
  generalize (writes.filter fun entry => entry.1 ≠ []) = entries
  induction entries using List.reverseRecOn with
  | nil => exact ⟨[], by simp, rfl, rfl⟩
  | append_singleton entries entry ih =>
      obtain ⟨chunks, hqueue, hplace, hplaces⟩ := ih
      rw [List.foldl_append, List.foldl_cons, List.foldl_nil]
      rw [hqueue, hplace]
      refine ⟨chunks ++ chunksFrom (app.queued + chunks.length) entry.1 entry.2 kind, ?_, ?_, ?_⟩
      · rw [appendPendingWrite, List.append_assoc]
      · rw [appendPendingWrite]
        simp only [List.length_append]
        omega
      · rw [List.map_append, hplaces, places_chunksFrom, List.length_append,
          List.range'_append_1]

theorem Sound.enqueue (h : app.Sound) (writes : List (Bytes × Option Uuid))
    (kind : PendingWriteKind) : (app.enqueue writes kind).Sound := by
  obtain ⟨chunks, hqueue, hplace, hplaces⟩ := app.candidate_eq writes kind
  have hqueued : (app.enqueue writes kind).queued = app.queued + chunks.length := hplace
  refine ⟨fun port => ?_, h.fresh, h.distinct⟩
  have hwrites : (app.enqueue writes kind).writes port =
      (app.setQueue app.selectedPort (some (app.candidate writes kind).1)).writes port := rfl
  rw [hwrites, writes_setQueue, hqueued]
  split_ifs with hport
  · rw [Option.getD_some, hqueue]
    refine (h.writes app.selectedPort).push (Nat.le_add_right _ _) ?_ fun chunk hchunk => ?_
    · rw [← List.pairwise_map (R := (· < ·)) (f := PendingWrite.place), hplaces]
      exact List.pairwise_lt_range'
    · have hmem : chunk.place ∈ List.range' app.queued chunks.length := by
        rw [← hplaces]
        exact List.mem_map_of_mem hchunk
      exact List.mem_range'_1.1 hmem
  · exact (h.writes port).later (Nat.le_add_right _ _)

/-- The queue as it was before; its places are not used again. -/
theorem Sound.rollback (h : app.Sound) (writes : List (Bytes × Option Uuid))
    (kind : PendingWriteKind) :
    ((app.enqueue writes kind).setRest app.selectedPort (app.queue app.selectedPort)).Sound := by
  obtain ⟨chunks, -, hplace, -⟩ := app.candidate_eq writes kind
  have hqueued : (app.enqueue writes kind).queued = app.queued + chunks.length := hplace
  refine ⟨fun port => ?_, h.fresh, h.distinct⟩
  have hlater := (h.writes port).later (Nat.le_add_right app.queued chunks.length)
  change (App.writes _ port).Sound (app.enqueue writes kind).queued
  rw [writes_setRest, hqueued]
  by_cases hport : port = app.selectedPort
  · rw [if_pos hport]
    rw [hport] at hlater
    exact hlater
  · have hsame : (app.enqueue writes kind).writes port = app.writes port := by
      change (app.setQueue app.selectedPort _).writes port = _
      rw [writes_setQueue, if_neg hport]
    rw [if_neg hport, hsame]
    exact hlater

/-- The requests of the user keep the queues sound, when no flush stalls. -/
theorem Sound.requestWriteOperations (h : app.Sound) (writes : List (Bytes × Option Uuid))
    (kind : PendingWriteKind)
    (hstalls : app.takes writes kind = true → ¬ app.Stalls accepts app.selectedPort) :
    (app.requestWriteOperations accepts writes kind).2.Sound := by
  unfold App.requestWriteOperations
  have henqueued := h.enqueue writes kind
  split_ifs with hempty htakes
  · exact h
  · exact h
  · rw [Bool.not_eq_false] at htakes
    have hflush : ¬ (app.enqueue writes kind).Stalls accepts app.selectedPort := hstalls htakes
    dsimp only
    by_cases howns : (app.enqueue writes kind).ownsControl app.selectedPort = true
    · rw [if_pos howns]
      exact henqueued.flush hflush
    · rw [if_neg howns]
      by_cases hacquiring : (app.enqueue writes kind).acquiring app.selectedPort = true
      · rw [if_pos hacquiring]
        exact henqueued
      · rw [if_neg hacquiring]
        cases hsent : (app.enqueue writes kind).acquireControl accepts with
        | none => exact h.rollback writes kind
        | some sent =>
            unfold acquireControl at hsent
            split_ifs at hsent
            exact (henqueued.sendMessage (by intros; rfl) (by intros; rfl) hsent).1

/-! ## Removal of an operation -/

/-- An operation which may be taken lies behind the progress. -/
theorem Sound.behind_progress (h : app.Sound) {index : ℕ} {operation : QueuedLineOperation}
    (hoperation : (queuedLineOperations (app.queue port))[index]? = some operation)
    (hsending : app.sending port operation = false)
    (hbetween : ¬ (index = 0 ∧ app.BetweenChunks port)) {progress : InFlightWrite}
    (hprogress : app.inflightWrites port = some progress) :
    progress.chunkIndex < operation.start := by
  have htiles := tiles_queuedLineOperations (app.queue port)
  have hgoes := (h.writes port).goes progress hprogress
  obtain ⟨hbound, hget⟩ := List.getElem?_eq_some_iff.1 hoperation
  obtain ⟨first, rest, hsplit⟩ := List.exists_cons_of_length_pos (by omega :
    0 < (queuedLineOperations (app.queue port)).length)
  have hreach : progress.chunkIndex < first.stop := by
    refine htiles.first first rest hsplit _ progress.key hgoes.inside fun j chunk hj hchunk => ?_
    exact hgoes.same j chunk hj hchunk
  cases index with
  | succ index =>
      have horder := htiles.ordered
      rw [hsplit, List.pairwise_cons] at horder
      have hmem : operation ∈ rest := by
        rw [hsplit, List.getElem?_cons_succ] at hoperation
        exact List.mem_of_getElem? hoperation
      exact hreach.trans_le (horder.1 operation hmem)
  | zero =>
      have hfirst : first = operation := by
        rw [hsplit] at hoperation
        exact Option.some.inj hoperation
      subst hfirst
      by_contra hnot
      cases hwriting : (app.writes port).writing with
      | nil =>
          exact hbetween ⟨rfl, writing_eq_false_iff.2 hwriting, progress, hprogress,
            hgoes.begun hwriting⟩
      | cons operationId others =>
          -- the Write under way is of the same operation
          have hmem : operationId ∈ (app.writes port).writing := by simp [hwriting]
          have hid := hgoes.operation operationId hmem
          obtain ⟨entry, hentry, hwrite⟩ := List.mem_filterMap.1 hmem
          have hinside := htiles.inside first (by simp [hsplit])
          have hchunk := List.getElem?_eq_getElem (by omega :
            first.start < (app.queue port).length)
          have hkey := htiles.keys first (by simp [hsplit]) _ _ (le_refl _) hinside.1 hchunk
          have hsame := hgoes.same _ _ (by omega) hchunk
          have heq : first.operationId = operationId := by
            rw [hid]
            exact congrArg Prod.fst (hkey.symm.trans hsame)
          have hall := List.any_eq_false.1 hsending entry hentry
          cases hrequest : entry.2 with
          | write target found =>
              rw [hrequest] at hwrite hall
              have hwrite : (if target = port then some found else none) = some operationId := hwrite
              split_ifs at hwrite with htarget
              exact hall (decide_eq_true ⟨htarget, .inr (heq.trans (Option.some.inj hwrite).symm)⟩)
          | _ =>
              rw [hrequest] at hwrite
              cases hwrite

theorem takeQueuedLineOperation_eq_some {queue rest : List PendingWrite} {index : ℕ}
    {operation : QueuedLineOperation}
    (h : takeQueuedLineOperation queue index = some (operation, rest)) :
    ∃ found, (queuedLineOperations queue)[index]? = some found ∧ operation.start = found.start ∧
      operation.operationId = found.operationId ∧
      rest = queue.take found.start ++ queue.drop found.stop := by
  obtain ⟨found, hfound, heq⟩ := Option.map_eq_some_iff.1 h
  obtain ⟨rfl, rfl⟩ := Prod.mk.inj heq
  exact ⟨found, hfound, rfl, rfl, rfl⟩

theorem mem_drop_take_of_not_mem {α : Type} {items : List α} {item : α} {start stop : ℕ}
    (hle : start ≤ stop) (hmem : item ∈ items)
    (hnot : item ∉ items.take start ++ items.drop stop) :
    item ∈ (items.take stop).drop start := by
  rw [List.mem_append, not_or] at hnot
  rw [← List.take_append_drop stop items] at hmem
  have hfront := (List.mem_append.1 hmem).resolve_right hnot.2
  rw [← List.take_append_drop start (items.take stop), List.take_take, min_eq_left hle] at hfront
  exact (List.mem_append.1 hfront).resolve_left hnot.1

/-- The removal of an operation takes chunks which were not sent. -/
theorem Sound.removeQueuedLineOperation (h : app.Sound) {index : ℕ}
    (hbetween : ¬ (index = 0 ∧ app.BetweenChunks app.selectedPort)) :
    (app.removeQueuedLineOperation accepts index).Sound ∧
      ∀ chunk ∈ app.queue app.selectedPort,
        chunk ∉ (app.removeQueuedLineOperation accepts index).queue app.selectedPort →
        chunk.place ∉ (app.writes app.selectedPort).sent := by
  unfold App.removeQueuedLineOperation
  dsimp only
  cases htaken : takeQueuedLineOperation (app.queue app.selectedPort) index with
  | none => exact ⟨h, fun chunk hchunk hnot => absurd hchunk hnot⟩
  | some taken =>
      obtain ⟨operation, rest⟩ := taken
      dsimp only
      by_cases hsending : app.sending app.selectedPort operation = true
      · rw [if_pos hsending]
        exact ⟨h, fun chunk hchunk hnot => absurd hchunk hnot⟩
      · rw [if_neg hsending]
        obtain ⟨found, hfound, -, hid, hrest⟩ := takeQueuedLineOperation_eq_some htaken
        have hsame : app.sending app.selectedPort found = false := by
          rw [Bool.not_eq_true] at hsending
          rw [← hsending]
          unfold sending
          rw [hid]
        have hbehind := fun progress => @Sound.behind_progress _ _ h index found hfound hsame
          hbetween progress
        have hinside := (tiles_queuedLineOperations (app.queue app.selectedPort)).inside found
          (List.mem_of_getElem? hfound)
        have hsound : (app.setRest app.selectedPort rest).Sound := by
          refine ⟨fun port => ?_, h.fresh, h.distinct⟩
          rw [writes_setRest, hrest]
          split_ifs
          · exact (h.writes app.selectedPort).remove hinside.1.le
              (hinside.1.le.trans hinside.2) hbehind
          · exact h.writes port
        have hunsent : ∀ chunk ∈ app.queue app.selectedPort, chunk ∉ rest →
            chunk.place ∉ (app.writes app.selectedPort).sent := by
          rw [hrest]
          exact fun chunk hchunk hnot => (h.writes app.selectedPort).removed_unsent hbehind
            (mem_drop_take_of_not_mem hinside.1.le hchunk hnot)
        split_ifs with hcancels
        · -- the queue was empty already
          refine ⟨hsound.cancelQueuedControl accepts _, fun chunk hchunk _ => ?_⟩
          refine hunsent chunk hchunk ?_
          rw [hcancels.1]
          exact List.not_mem_nil
        · refine ⟨hsound, fun chunk hchunk hnot => hunsent chunk hchunk ?_⟩
          rwa [queue_setRest] at hnot

/-! ## Steps -/

theorem Sound.handleWriteAccepted (h : app.Sound)
    (hstalls : ∀ port operationId, app.request requestId = some (.write port operationId) →
      ¬ ((app.answered requestId).acknowledgeInflightWrite port).Stalls accepts port) :
    (app.handleWriteAccepted accepts requestId).Sound := by
  unfold App.handleWriteAccepted
  split
  next port operationId hrequest =>
    exact (h.acknowledged hrequest).flush (hstalls port operationId hrequest)
  next hnot =>
    exact h.answered fun port operationId hid => hnot port operationId hid

theorem Sound.handleControlGranted (h : app.Sound) {lease : ControlLease}
    (hother : ∀ port operationId, app.request requestId ≠ some (.write port operationId))
    (hstalls : ∀ port, app.request requestId = some (.acquire port) →
      ¬ ((app.answered requestId).installLease port lease).Stalls accepts port) :
    (app.handleControlGranted accepts requestId lease).Sound := by
  have hanswered := h.answered hother
  unfold App.handleControlGranted
  split
  next port hrequest =>
    have hinstalled : ((app.answered requestId).installLease port lease).Sound :=
      ⟨hanswered.writes, hanswered.fresh, hanswered.distinct⟩
    exact hinstalled.flush (hstalls port hrequest)
  · exact hanswered

theorem Sound.pushEvent (h : app.Sound) {control : Option ControlLease} {activeTrigger : Bool}
    (hstalls : ¬ (((app.project port control activeTrigger).setQueuedControl port false).dropAcquires
      port).Stalls accepts port) :
    (app.pushEvent accepts port control activeTrigger).Sound := by
  have hproject : (app.project port control activeTrigger).Sound :=
    ⟨h.writes, h.fresh, h.distinct⟩
  have hqueued : ((app.project port control activeTrigger).setQueuedControl port false).Sound :=
    ⟨h.writes, h.fresh, h.distinct⟩
  unfold App.pushEvent
  dsimp only
  split_ifs
  · exact (hqueued.dropAcquires port).flush hstalls
  · exact hproject
  · exact h

theorem Sound.subscribe (h : app.Sound) {ready : Bool}
    (hstalls : ¬ (app.setView port { app.views port with ready := ready }).Stalls accepts port) :
    (app.subscribe accepts port ready).Sound := by
  have hview : (app.setView port { app.views port with ready := ready }).Sound :=
    ⟨h.writes, h.fresh, h.distinct⟩
  unfold App.subscribe
  dsimp only
  split_ifs
  · exact hview.flush hstalls
  · exact hview
  · exact h

/-- The operation has a chunk behind the one under way. -/
def Continues (app : App) (port : String) : Prop :=
  ∃ progress write, app.inflightWrites port = some progress ∧
    (app.queue port)[progress.chunkIndex + 1]? = some write ∧ write.key = progress.key

/-- What an acknowledgement leaves as it was. -/
theorem acknowledgeInflightWrite_rest (app : App) (port : String) :
    (app.acknowledgeInflightWrite port).ports = app.ports ∧
      (app.acknowledgeInflightWrite port).mayWrite port = app.mayWrite port ∧
      (app.acknowledgeInflightWrite port).canSend accepts = app.canSend accepts := by
  unfold acknowledgeInflightWrite
  split
  · exact ⟨rfl, rfl, rfl⟩
  · dsimp only
    split_ifs <;> exact ⟨rfl, rfl, rfl⟩

theorem continues_of_acknowledged {progress : InFlightWrite}
    (h : (app.acknowledgeInflightWrite port).inflightWrites port = some progress) :
    app.Continues port := by
  unfold acknowledgeInflightWrite at h
  split at h
  next hnone =>
    rw [hnone] at h
    cases h
  next found hfound =>
    dsimp only at h
    split_ifs at h with hsame
    · cases hwrite : (app.queue port)[found.chunkIndex + 1]? with
      | none =>
          rw [hwrite] at hsame
          cases hsame
      | some write =>
          rw [hwrite, Option.any_some, decide_eq_true_eq] at hsame
          exact ⟨found, write, hfound, hwrite, Prod.ext hsame.1 hsame.2⟩
    · simp [setProgress] at h

/-- The daemon answers a request of the console with an answer of its kind, and other parts of
the console write nothing. -/
def Fits (app : App) : Input → Prop
  | .controlGranted _ requestId _ | .answer requestId =>
      ∀ port operationId, app.request requestId ≠ some (.write port operationId)
  | .request _ pending => ∀ port, pending.writeOf port = none
  | _ => True

/-- No flush of the step is refused a chunk inside of an operation, and the step takes no
operation between two of its chunks. -/
def Meets (app : App) : Input → Prop
  | .requestWrite accepts writes kind =>
      app.takes writes kind = true → ¬ app.Stalls accepts app.selectedPort
  | .flush accepts port => ¬ app.Stalls accepts port
  | .writeAccepted accepts requestId =>
      ∀ port operationId, app.request requestId = some (.write port operationId) →
        ¬ (port ∈ app.ports ∧ app.mayWrite port = true ∧
          (app.answered requestId).canSend accepts = false ∧ app.Continues port)
  | .controlGranted accepts requestId lease =>
      ∀ port, app.request requestId = some (.acquire port) →
        ¬ ((app.answered requestId).installLease port lease).Stalls accepts port
  | .event accepts port control activeTrigger =>
      ¬ (((app.project port control activeTrigger).setQueuedControl port false).dropAcquires
        port).Stalls accepts port
  | .subscription accepts port ready =>
      ¬ (app.setView port { app.views port with ready := ready }).Stalls accepts port
  | .removeOperation _ index => ¬ (index = 0 ∧ app.BetweenChunks app.selectedPort)
  | _ => True

/-- A step which meets the condition keeps the queues sound. -/
theorem Sound.step (h : app.Sound) {input : Input} (hfits : app.Fits input)
    (hmeets : app.Meets input) : (app.step input).Sound := by
  cases input with
  | requestWrite accepts writes kind => exact h.requestWriteOperations writes kind hmeets
  | flush accepts port => exact h.flush hmeets
  | writeAccepted accepts requestId =>
      refine h.handleWriteAccepted fun port operationId hrequest hstalls => ?_
      obtain ⟨hport, hmay, hrefused, -, progress, hprogress, -⟩ := hstalls
      obtain ⟨hports, hsame, hsends⟩ :=
        @acknowledgeInflightWrite_rest accepts (app.answered requestId) port
      have hcontinues : (app.answered requestId).Continues port :=
        continues_of_acknowledged hprogress
      refine hmeets port operationId hrequest ⟨?_, ?_, ?_, hcontinues⟩
      · rwa [hports] at hport
      · rwa [hsame] at hmay
      · rwa [hsends] at hrefused
  | error requestId => exact h.handleError
  | controlGranted accepts requestId lease => exact h.handleControlGranted hfits hmeets
  | event accepts port control activeTrigger => exact h.pushEvent hmeets
  | subscription accepts port ready => exact h.subscribe hmeets
  | removeOperation accepts index => exact (h.removeQueuedLineOperation hmeets).1
  | releaseControl accepts => exact h.releaseControl accepts
  | cancelQueuedControl accepts port => exact h.cancelQueuedControl accepts port
  | control port control => exact ⟨h.writes, h.fresh, h.distinct⟩
  | queuedControl port => exact ⟨h.writes, h.fresh, h.distinct⟩
  | request accepts pending =>
      change ((app.sendMessage accepts .other pending).getD app).Sound
      cases hsent : app.sendMessage accepts .other pending with
      | none => exact h
      | some sent => exact (h.sendMessage (by intros; rfl) hfits hsent).1
  | answer requestId => exact h.answered hfits
  | select port => exact ⟨h.writes, h.fresh, h.distinct⟩

/-! ## Runs -/

/-- The console at the beginning of a connection. -/
structure Begins (app : App) : Prop where
  pendingWrites : ∀ port, app.pendingWrites port = none
  inflightWrites : ∀ port, app.inflightWrites port = none
  pendingRequests : app.pendingRequests = []
  outbound : app.outbound = []

/-- A run each step of which meets the condition. -/
inductive Reaches (start : App) : App → Prop
  | start : Reaches start start
  | step {app : App} (input : Input) (before : Reaches start app) (fits : app.Fits input)
      (meets : app.Meets input) : Reaches start (app.step input)

theorem Begins.sound (h : app.Begins) : app.Sound := by
  have hwrites : ∀ port, app.writes port = ⟨[], none, [], []⟩ := by
    intro port
    simp [App.writes, queue, h.pendingWrites, h.inflightWrites, h.pendingRequests, h.outbound]
  refine ⟨fun port => ?_, by simp [h.pendingRequests], by simp [h.pendingRequests]⟩
  rw [hwrites]
  exact ⟨List.Pairwise.nil, by simp, List.Pairwise.nil, by simp, Nat.zero_le 1, by simp, by simp⟩

theorem Reaches.sound {start : App} (h : start.Reaches app) (hbegins : start.Begins) :
    app.Sound := by
  induction h with
  | start => exact hbegins.sound
  | step input _ hfits hmeets ih => exact ih.step hfits hmeets

/-! ## Each chunk once and in order -/

/-- The user cannot take an operation of which a chunk was sent. -/
theorem Sound.removeQueuedLineOperation_eq (h : app.Sound) {index : ℕ}
    {operation : QueuedLineOperation}
    (hoperation : (queuedLineOperations (app.queue app.selectedPort))[index]? = some operation)
    (hbetween : ¬ (index = 0 ∧ app.BetweenChunks app.selectedPort))
    (hsent : ∃ chunk ∈ ((app.queue app.selectedPort).take operation.stop).drop operation.start,
      chunk.place ∈ (app.writes app.selectedPort).sent) :
    app.removeQueuedLineOperation accepts index = app := by
  obtain ⟨chunk, hchunk, hplace⟩ := hsent
  cases hsending : app.sending app.selectedPort operation with
  | false =>
      have hunsent := (h.writes app.selectedPort).removed_unsent
        (fun progress => h.behind_progress hoperation hsending hbetween) hchunk
      exact absurd hplace hunsent
  | true =>
      unfold App.removeQueuedLineOperation
      dsimp only
      rw [takeQueuedLineOperation, hoperation]
      exact if_pos hsending

/-- On a run each step of which meets the condition the chunks of a port go onto the channel
once, in the order of the queue and one at a time.  No step which meets the condition takes an
operation of which a chunk was sent, and a flush that nothing hinders sends the next chunk. -/
theorem sends_once_in_order {start : App} (hbegins : start.Begins) (hreaches : start.Reaches app) :
    (∀ port, (app.writes port).sent.Pairwise (· < ·) ∧
      (app.queue port).Pairwise (fun a b => a.place < b.place) ∧
      (app.writes port).writing.length ≤ 1) ∧
    (∀ accepts index operation, app.Meets (.removeOperation accepts index) →
      (queuedLineOperations (app.queue app.selectedPort))[index]? = some operation →
      (∃ chunk ∈ ((app.queue app.selectedPort).take operation.stop).drop operation.start,
        chunk.place ∈ (app.writes app.selectedPort).sent) →
      app.step (.removeOperation accepts index) = app) ∧
    ∀ accepts port, port ∈ app.ports → app.mayWrite port = true → app.writing port = false →
      app.queue port ≠ [] → app.canSend accepts = true →
      ∃ lease chunk, (app.step (.flush accepts port)).outbound =
          app.outbound ++ [.write app.nextRequest port lease chunk] ∧
        (app.writes port).IsNext chunk := by
  have hsound := hreaches.sound hbegins
  refine ⟨fun port => ?_, ?_, ?_⟩
  · have hport := hsound.writes port
    exact ⟨hport.sentRising, hport.rising, hport.single⟩
  · intro accepts index operation hmeets hoperation hsent
    exact hsound.removeQueuedLineOperation_eq hoperation hmeets hsent
  · intro accepts port hport hmay hwriting hqueue hsend
    exact hsound.flush_sends hport hmay hwriting hqueue hsend

end

/-- A console which owns its port, at the beginning of a connection. -/
def owning : App where
  transportConnected := true
  helloAccepted := true
  connectionGeneration := some 1
  actor := some ⟨"human", "human", .human⟩
  ports := ["COM3"]
  views := fun _ => ⟨true, some ⟨1, ⟨"human", "human", .human⟩, 1, 1, 1, 0, 1⟩, false⟩
  selectedPort := "COM3"
  pendingWrites := fun _ => none
  inflightWrites := fun _ => none
  pendingRequests := []
  queuedControls := fun _ => false
  nextRequest := 0
  outbound := []
  queued := 0

theorem sends_once_in_order_owning :
    let app := owning.step (.requestWrite true [([1], some 7), ([2], some 7)] .line)
    (app.writes "COM3").sent = [0] ∧ (app.writes "COM3").sent.Pairwise (· < ·) :=
  ⟨by decide, ((sends_once_in_order ⟨fun _ => rfl, fun _ => rfl, rfl, rfl⟩
    (.step (.requestWrite true [([1], some 7), ([2], some 7)] .line) .start trivial (by
      rintro - ⟨-, -, -, -, progress, hprogress, -⟩
      cases hprogress))).1 "COM3").1⟩

/-- Back-pressure between two chunks repeats the first one.  An operation that the user takes
between two chunks leaves a record behind which blocks the port. -/
theorem chunk_repeated_and_queue_blocked :
    (([.requestWrite true [([1], some 7), ([2], some 7)] .line, .writeAccepted false 0,
        .flush true "COM3"].foldl step owning).writes "COM3").sent = [0, 0] ∧
    let blocked := [.requestWrite true [([1], some 7), ([2], some 7)] .line,
      .event true "COM3" (some ⟨1, ⟨"human", "human", .human⟩, 1, 1, 1, 0, 1⟩) true,
      .writeAccepted true 0, .requestWrite true [([3], some 8)] .line, .removeOperation true 0,
      .event true "COM3" (some ⟨1, ⟨"human", "human", .human⟩, 1, 1, 1, 0, 1⟩) false].foldl step
        owning
    (blocked.writes "COM3").sent = [0] ∧
      (blocked.queue "COM3").map PendingWrite.data = [[3]] ∧
      blocked.mayWrite "COM3" = true ∧ blocked.writing "COM3" = false ∧ blocked.canSend true = true ∧
      (blocked.step (.flush true "COM3")).outbound = blocked.outbound := by
  decide

end App

end SerialPlatform.Console
