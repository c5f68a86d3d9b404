import SerialPlatform.SlotExecuted

/-!
# Sound actors

Between two turns an actor has a consistent mandate, at most one Trigger write in
flight and a record of every request whose action may have touched the wire.
-/

namespace SerialPlatform

/-- Actions on behalf of nobody's request. -/
def Origin.IsInternal (origin : Origin) : Prop := origin.requestId = none

namespace SlotActor

structure Sound (known : Actor → Prop) (s : SlotActor) : Prop where
  consistent : s.Consistent known
  flight : (s.view []).FlightOk
  ledger : (s.view []).Ledger
  once : (s.view []).touched.Nodup
  kept : ∀ id ∈ (s.view []).touched, id ∈ (s.view []).executed

/-- A turn of the actor, or a part of one. -/
structure Turns (known : Actor → Prop) (s t : SlotActor) : Prop where
  path : Reaches known (fun _ => True) (s.view []) (t.view [])
  sound : t.Sound known

variable {known : Actor → Prop}

end SlotActor

theorem Reaches.mono {known : Actor → Prop} {allowed allowed' : Origin → Prop} {v w : View}
    (h : Reaches known allowed v w) (hmono : ∀ origin, allowed origin → allowed' origin) :
    Reaches known allowed' v w := by
  induction h with
  | refl => exact .refl
  | tail _ hstep ih =>
      refine ih.tail ?_
      cases hstep with
      | routine h => exact .routine h
      | opening h => exact .opening h
      | wire horigin hallowed h => exact .wire horigin (hmono _ hallowed) h
      | arm hallowed h => exact .arm (hmono _ hallowed) h
      | start h => exact .start h
      | arrange h => exact .arrange h
      | keep h => exact .keep h

/-- What the execution of a physical request does to the record of executed ids. -/
theorem Acted.spec {known : Actor → Prop} {requestId : Uuid} {v w : View} {result : SlotResult}
    (h : Acted (Act known (.request requestId)) v w result) :
    Reaches known (fun _ => True) v w ∧ w.memory = v.memory ∧
      (w.touched = v.touched ∨
        w.touched = v.touched ++ [requestId] ∧ isCacheableWriteResult result = true) := by
  cases h with
  | idle hpath => exact ⟨hpath.reaches, hpath.memory_eq, .inl hpath.touched_eq⟩
  | @acted v₁ v₂ hbefore hact hafter hkept =>
      have hstep : SlotStep known (fun _ => True) v₁ v₂ := by
        cases hact with
        | wire h => exact .wire (fun id kind heq => by cases heq) trivial h
        | arm h => exact .arm trivial h
      refine ⟨(hbefore.reaches.tail hstep).trans hafter.reaches,
        hafter.memory_eq.trans (hact.memory_eq.trans hbefore.memory_eq), ?_⟩
      have hfirst := hbefore.touched_eq
      have hlast := hafter.touched_eq
      rw [hlast]
      rcases hact.touched_eq with hsame | hone
      · exact .inl (hsame.trans hfirst)
      · rcases hkept with hcacheable | hsame
        · exact .inr ⟨hone.trans (by rw [hfirst]), hcacheable⟩
        · exact .inl (hsame.trans hfirst)

namespace SlotActor

variable {known : Actor → Prop} {s t u : SlotActor}

theorem Turns.trans (hst : Turns known s t) (htu : Turns known t u) : Turns known s u :=
  ⟨hst.path.trans htu.path, htu.sound⟩

/-- Nothing which is done for nobody's request changes what was executed. -/
theorem Sound.advance (h : s.Sound known)
    (hadvance : Advances [] Origin.IsInternal known s t) : Turns known s t := by
  obtain ⟨⟨extra, htouched, hinternal⟩, hexecuted⟩ := hadvance.path.remembers
  have hnone : extra = [] := by
    cases extra with
    | nil => rfl
    | cons id rest => cases hinternal id List.mem_cons_self
  rw [hnone, List.append_nil] at htouched
  refine ⟨hadvance.path.mono fun _ _ => trivial, hadvance.consistent,
    hadvance.path.flightOk h.flight, hadvance.path.ledger h.ledger, ?_, fun id hid => ?_⟩
  · rw [htouched]
    exact h.once
  · rw [htouched] at hid
    exact hexecuted (h.kept id hid)

theorem Sound.turns_reply (h : s.Sound known) (key : String × Uuid) (result : SlotResult) :
    Turns known s (s.reply key result) := by
  have hreply : Calmly (s.view []) ((s.reply key result).view []) :=
    (Calm.reply (v := s.view []) rfl).calmly
  exact h.advance (.of_calmly h.consistent hreply)

/-! ## Physical requests -/

/-- The context of a Run has room for one more intervention while an id is free. -/
theorem Sound.roomy (h : s.Sound known) {requestId : Uuid}
    (hfree : s.caches.executedWriteIds.wasExecutedOrReserveable requestId = .ok false) :
    requestId ∉ (s.view []).executed ∧ s.Roomy ∧
      s.caches.executedWriteIds.ids.card < s.caches.executedWriteIds.limit := by
  have hlimit : s.caches.executedWriteIds.limit = writeIdempotencyHistoryEntries :=
    h.ledger.limit
  unfold ExecutedWriteIds.wasExecutedOrReserveable at hfree
  split_ifs at hfree with hmem hfull
  · cases hfree
  have hroom : s.caches.executedWriteIds.ids.card < s.caches.executedWriteIds.limit :=
    not_le.mp hfull
  refine ⟨hmem, fun context hcontext => ?_, hroom⟩
  have hbound := h.ledger.revision context hcontext
  have hsubset : (s.view []).touched.toFinset ⊆ (s.view []).executed :=
    fun id hid => h.kept id (List.mem_toFinset.mp hid)
  have hcard := Finset.card_le_card hsubset
  rw [List.toFinset_card_of_nodup h.once] at hcard
  have hexecuted : (s.view []).executed.card = s.caches.executedWriteIds.ids.card := rfl
  omega

/-- A change on which the mandate does not rest. -/
theorem Consistent.of_standing (h : s.Consistent known)
    (hmandate : t.mandate = { s.mandate with standing := t.standing })
    (hcontrol : t.authority.control = s.authority.control)
    (hgeneration : t.port.generation = s.port.generation)
    (hepoch : t.daemonEpoch = s.daemonEpoch)
    (hpaused : t.port.administrativelyPaused = s.port.administrativelyPaused) :
    t.Consistent known := by
  unfold Consistent
  rw [hmandate]
  exact Mandate.Consistent.standing h hcontrol hgeneration hepoch
    fun hpause => Mandate.Consistent.paused h (hpaused.symm.trans hpause)

theorem Consistent.remember (h : s.Consistent known) (caches : RequestCaches) :
    ({ s with caches := caches } : SlotActor).Consistent known :=
  h.of_standing rfl rfl rfl rfl rfl

section Remembering

variable {requestId : Uuid} {fingerprint : WriteFingerprint} {result : SlotResult}

theorem Consistent.cacheWriteResult (h : s.Consistent known) :
    (s.cacheWriteResult requestId fingerprint result).Consistent known := by
  unfold SlotActor.cacheWriteResult
  split_ifs
  · exact h
  · exact h.remember _

theorem touched_remember (s : SlotActor) (caches : RequestCaches) :
    (({ s with caches := caches } : SlotActor).view []).touched = (s.view []).touched := rfl

theorem executed_remember (s : SlotActor) (caches : RequestCaches) :
    (({ s with caches := caches } : SlotActor).view []).executed =
      caches.executedWriteIds.ids := rfl

theorem touched_cacheWriteResult (s : SlotActor) :
    ((s.cacheWriteResult requestId fingerprint result).view []).touched =
      (s.view []).touched := by
  unfold SlotActor.cacheWriteResult
  split_ifs
  · rfl
  · exact touched_remember s _

theorem executed_cacheWriteResult (hnone : s.caches.writeRequestCache requestId = none) :
    ((s.cacheWriteResult requestId fingerprint result).view []).executed =
      insert requestId (s.view []).executed := by
  have hfresh : ¬ (s.caches.writeRequestCache requestId).isSome = true := by
    rw [hnone]
    exact Bool.false_ne_true
  unfold SlotActor.cacheWriteResult
  rw [if_neg hfresh]
  exact executed_remember s _

/-- The result of an executed request is kept under its id. -/
theorem keep_cacheWriteResult (hand : List RxSegment)
    (hnone : s.caches.writeRequestCache requestId = none)
    (hroom : s.caches.executedWriteIds.ids.card < s.caches.executedWriteIds.limit) :
    Keep (s.view hand) ((s.cacheWriteResult requestId fingerprint result).view hand) := by
  have hfresh : ¬ (s.caches.writeRequestCache requestId).isSome = true := by
    rw [hnone]
    exact Bool.false_ne_true
  unfold SlotActor.cacheWriteResult
  rw [if_neg hfresh]
  exact Keep.remember (v := s.view hand) requestId _ _ hroom

end Remembering

/-- A free id is executed once, and its result is kept if the wire was touched. -/
theorem Sound.executes {requestId : Uuid} (fingerprint : WriteFingerprint)
    {done : Executed} (h : s.Sound known) (hnew : requestId ∉ (s.view []).executed)
    (hnone : s.caches.writeRequestCache requestId = none)
    (hroom : s.caches.executedWriteIds.ids.card < s.caches.executedWriteIds.limit)
    (hacts : Acts [] known (Act known (.request requestId)) s done) :
    Turns known s
      (if isCacheableWriteResult done.2 then
        done.1.cacheWriteResult requestId fingerprint done.2
      else done.1) := by
  obtain ⟨hpath, hmemory, htouched⟩ := hacts.1.spec
  have hexecuted : (done.1.view []).executed = (s.view []).executed :=
    congrArg (fun memory => memory.1.ids) hmemory
  have hledger := hpath.ledger h.ledger
  have hflight := hpath.flightOk h.flight
  have hfresh : requestId ∉ (s.view []).touched := fun hmem => hnew (h.kept requestId hmem)
  have honce : (done.1.view []).touched.Nodup := by
    rcases htouched with hsame | ⟨hone, -⟩
    · rw [hsame]
      exact h.once
    · rw [hone]
      exact List.nodup_append.mpr ⟨h.once, List.nodup_singleton _, fun id hid other hother heq =>
        hfresh (by rwa [← List.mem_singleton.mp hother, ← heq])⟩
  by_cases hcacheable : isCacheableWriteResult done.2 = true
  · rw [if_pos hcacheable]
    have hempty : done.1.caches.writeRequestCache requestId = none :=
      (congrFun (congrArg (fun memory => memory.2.1) hmemory) requestId).trans hnone
    have hspare : done.1.caches.executedWriteIds.ids.card <
        done.1.caches.executedWriteIds.limit := by
      have hsame : done.1.caches.executedWriteIds = s.caches.executedWriteIds :=
        congrArg (fun memory => memory.1) hmemory
      rw [hsame]
      exact hroom
    have hkeep : Keep (done.1.view [])
        ((done.1.cacheWriteResult requestId fingerprint done.2).view []) :=
      keep_cacheWriteResult [] hempty hspare
    have hdone : Reaches known (fun _ => True) (s.view []) _ := hpath.tail (.keep hkeep)
    refine ⟨hdone, hacts.2.cacheWriteResult, hdone.flightOk h.flight, hkeep.ledger hledger, ?_,
      fun id hid => ?_⟩
    · rw [touched_cacheWriteResult]
      exact honce
    · rw [executed_cacheWriteResult hempty, Finset.mem_insert, hexecuted]
      rw [touched_cacheWriteResult] at hid
      rcases htouched with heq | ⟨heq, -⟩
      · exact .inr (h.kept id (heq ▸ hid))
      · rw [heq] at hid
        rcases List.mem_append.mp hid with hold | hlast
        · exact .inr (h.kept id hold)
        · exact .inl (List.mem_singleton.mp hlast)
  · rw [if_neg hcacheable]
    refine ⟨hpath, hacts.2, hflight, hledger, honce, fun id hid => ?_⟩
    rcases htouched with hsame | ⟨-, hkept⟩
    · rw [hexecuted]
      exact h.kept id (hsame ▸ hid)
    · exact absurd hkept hcacheable

theorem turns_handlePhysical {key : String × Uuid} {request : SlotRequest}
    {fingerprint : WriteFingerprint} (h : s.Sound known) (hknown : known request.actor)
    (hfields : request.validateBusinessFields = .ok ())
    (hphysical : request.writeFingerprint = some fingerprint) :
    Turns known s (s.handlePhysical key request fingerprint) := by
  unfold handlePhysical
  extract_lets ready
  have hready : Turns known s ready :=
    h.advance ((advances_expireControl [] h.consistent).trans
      (.silent (consistent_expireControl h.consistent) rfl))
  have hs := hready.sound
  cases hvalid : request.validateWriteAuthorization ready.authority.control
      ready.authority.activeRun ready.authority.runContext ready.port.generation ready.now with
  | error error => exact hready.trans (hs.turns_reply _ _)
  | ok _ =>
      cases hcache : ready.caches.writeRequestCache key.2 with
      | some cached => exact hready.trans (hs.turns_reply _ _)
      | none =>
          simp only
          cases hfree : ready.caches.executedWriteIds.wasExecutedOrReserveable key.2 with
          | error error => exact hready.trans (hs.turns_reply _ _)
          | ok executed =>
              cases executed with
              | true => exact hready.trans (hs.turns_reply _ _)
              | false =>
                  obtain ⟨hnew, hroomy, hroom⟩ := hs.roomy hfree
                  have hsome : request.writeFingerprint.isSome = true := by
                    rw [hphysical]
                    rfl
                  have hacts : Acts [] known (Act known (.request key.2)) ready
                      (ready.execute (.request key.2) request) :=
                    acts_execute [] hs.consistent hs.flight hknown hfields hvalid hroomy hsome
                  have hdone := hs.executes fingerprint hnew hcache hroom hacts
                  exact (hready.trans hdone).trans (hdone.sound.turns_reply _ _)

/-! ## Requests -/

theorem turns_handleLogical {key : String × Uuid} {request : SlotRequest}
    (h : s.Sound known) (hknown : known request.actor)
    (hlogical : request.writeFingerprint = none) :
    Turns known s (s.handleLogical key request) := by
  unfold handleLogical
  extract_lets fingerprint executed
  cases hcache : s.caches.requestCache key with
  | some cached => exact h.turns_reply _ _
  | none =>
      have hdone : Turns known s executed.1 :=
        h.advance (advances_execute [] h.consistent hknown hlogical)
      have hcached : Turns known executed.1
          (executed.1.cacheResult key fingerprint executed.2) :=
        hdone.sound.advance (.silent hdone.sound.consistent (view_cacheResult [] _ _ _ _))
      exact (hdone.trans hcached).trans (hcached.sound.turns_reply _ _)

theorem actor_withRequestId (requestId : Uuid) (request : SlotRequest) :
    (request.withRequestId requestId).actor = request.actor := by
  cases request <;> rfl

theorem turns_handleRequest {requestId : Uuid} {request : SlotRequest} (h : s.Sound known)
    (hknown : known request.actor) : Turns known s (s.handleRequest requestId request) := by
  unfold handleRequest
  extract_lets named key expired
  have hnamed : known named.actor := by
    rw [actor_withRequestId]
    exact hknown
  cases hfields : named.validateBusinessFields with
  | error error => exact h.turns_reply _ _
  | ok _ =>
      have hexpired : Turns known s expired :=
        h.advance (advances_expirePendingRunStart [] h.consistent)
      cases hphysical : named.writeFingerprint with
      | some fingerprint =>
          exact hexpired.trans (turns_handlePhysical hexpired.sound hnamed hfields hphysical)
      | none => exact hexpired.trans (turns_handleLogical hexpired.sound hnamed hphysical)

end SlotActor
end SerialPlatform
