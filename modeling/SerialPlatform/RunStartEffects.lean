import SerialPlatform.RunStart

/-!
# What starting a Run leaves of the others

The daemon answers every request correctly and in time.  The call then leaves the Runs on the
other ports alone exactly if nothing makes the Session disconnect: a poll which the approval
deadline cuts off, a poll or a cancellation which the daemon refuses, or a renewal which it
refuses.
-/

namespace SerialPlatform.Agent.World

/-! ## A daemon which answers correctly and in time -/

structure Healthy (args : StartArgs) (actor : Actor) (approval : PendingRunStartApproval)
    (t : Turn) : Prop where
  connect : ∀ greeted, t.connect = .ok greeted → greeted = actor
  poll_delay : t.poll.delay ≤ defaultRpcTimeout
  poll : ∀ result, t.poll.result = .ok result →
    (∃ lease run, result = .runStartGranted args.requestId lease run) ∨
      result = .runStartPending approval ∨ result = .runStartDenied args.requestId ∨
      result = .runStartTimedOut args.requestId ∨ result = .runStartCancelled args.requestId
  cancel_delay : t.cancel.delay ≤ defaultRpcTimeout
  cancel : ∀ result, t.cancel.result = .ok result → result = .runStartCancelled approval.id
  release_delay : t.release.delay ≤ defaultRpcTimeout
  release : ∀ result, t.release.result = .ok result → result = .controlReleased
  idleRelease_delay : ∀ port, (t.idleRelease port).delay ≤ defaultRpcTimeout
  renewal : ∀ port, AnswersRenewal (t.renewal port)

/-! ## What disturbs a turn -/

def granting (answer : Answer) : Bool :=
  match answer.result with
  | .ok (.runStartGranted _ _ _) => true
  | _ => false

def askingHuman (answer : Answer) : Bool :=
  match answer.result with
  | .ok (.runStartPending _) => true
  | _ => false

/-- The world when the answer to the poll is read. -/
def polled (t : Turn) (w : World) : World :=
  ((((w.wait t.waited).wait t.prepared).connect t.connect).2).wait t.poll.delay

/-- The Session keeps its connection through one turn. -/
def UndisturbedTurn (t : Turn) (loop : Loop) (w : World) : Prop :=
  if t.callerGone ∨ loop.approvalDeadline ≤ w.now + t.waited then
    loop.pendingApproval.isSome → Confirmed t.cancel
  else
    let timeout := pollTimeout loop ((w.wait t.waited).wait t.prepared)
    timeout ≠ 0 →
      (w.session.connection = none → ∃ greeted, t.connect = .ok greeted) ∧
      t.poll.delay ≤ timeout ∧ Confirmed t.poll ∧
      (granting t.poll ∧ t.callerGoneAtGrant → Quiet t.release) ∧
      (askingHuman t.poll ∧ loop.nextRenewal ≤ (w.polled t).now →
        (w.polled t).Renewable t.idleRelease t.renewal)

/-- No turn which the loop reaches is disturbed. -/
def Undisturbed (args : StartArgs) (runHandle : String) (hardApprovalDeadline : ℕ) :
    List Turn → Loop → World → Prop
  | [], _, _ => True
  | t :: ts, loop, w =>
      UndisturbedTurn t loop w ∧
        match turn args runHandle hardApprovalDeadline t loop w with
        | .returned _ _ => True
        | .again loop w => Undisturbed args runHandle hardApprovalDeadline ts loop w

/-! ## The frame -/

/-- The other ports keep their Runs and leases, save for renewals by `renewed` and for Runs
which were idle for too long. -/
structure Frame (renewed : String → ControlLease → Prop) (port : String) (w w' : World) :
    Prop where
  now_le : w.now ≤ w'.now
  ttl : w'.session.runIdleTtl = w.session.runIdleTtl
  unowned : ∀ other, other ≠ port → w.session.ownedRun other = none →
    w'.session.ownedRun other = none ∧ w'.session.lease other = w.session.lease other
  owned : ∀ other run, other ≠ port → w.session.ownedRun other = some run →
    (w'.session.ownedRun other = some run ∧
      (w'.session.lease other = w.session.lease other ∨
        ∃ lease, w'.session.lease other = some lease ∧ renewed other lease)) ∨
    (run.idleExpired w'.now w.session.runIdleTtl = true ∧ w'.session.ownedRun other = none ∧
      w'.session.lease other = none)

theorem idleExpired_mono {run : OwnedRun} {now now' : ℕ} {ttl : Option ℕ} (h : now ≤ now')
    (hexpired : run.idleExpired now ttl = true) : run.idleExpired now' ttl = true := by
  cases ttl with
  | none => simp [OwnedRun.idleExpired] at hexpired
  | some ttl =>
    simp only [OwnedRun.idleExpired, Option.any_some, Bool.and_eq_true,
      decide_eq_true_eq] at hexpired ⊢
    exact ⟨hexpired.1, by omega⟩

namespace Frame

variable {renewed : String → ControlLease → Prop} {port : String} {w w' w'' : World}

theorem of_session (hnow : w.now ≤ w'.now) (hsession : w'.session = w.session) :
    Frame renewed port w w' := by
  refine ⟨hnow, by rw [hsession], ?_, ?_⟩
  · intro other _ hother
    rw [hsession]
    exact ⟨hother, rfl⟩
  · intro other run _ hrun
    rw [hsession]
    exact .inl ⟨hrun, .inl rfl⟩

theorem trans (h : Frame renewed port w w') (h' : Frame renewed port w' w'') :
    Frame renewed port w w'' := by
  refine ⟨h.now_le.trans h'.now_le, h'.ttl.trans h.ttl, ?_, ?_⟩
  · intro other hne hnone
    obtain ⟨hrun, hlease⟩ := h.unowned other hne hnone
    obtain ⟨hrun', hlease'⟩ := h'.unowned other hne hrun
    exact ⟨hrun', hlease'.trans hlease⟩
  · intro other run hne hrun
    rcases h.owned other run hne hrun with ⟨hkept, hlease⟩ | ⟨hexpired, hgone, hlease⟩
    · rcases h'.owned other run hne hkept with ⟨hkept', hlease'⟩ | ⟨hexpired', hgone', hlease'⟩
      · left
        refine ⟨hkept', ?_⟩
        rcases hlease' with hsame | hrenewed
        · rw [hsame]
          exact hlease
        · exact .inr hrenewed
      · right
        rw [h.ttl] at hexpired'
        exact ⟨hexpired', hgone', hlease'⟩
    · right
      obtain ⟨hrun', hlease'⟩ := h'.unowned other hne hgone
      exact ⟨idleExpired_mono h'.now_le hexpired, hrun', hlease'.trans hlease⟩

end Frame

theorem RenewedAll.frame {renewal : String → Answer} {renewed : String → ControlLease → Prop}
    {port : String} {w w' : World} (h : RenewedAll renewal w w')
    (hrenewed : ∀ other lease, Renews (renewal other) lease → renewed other lease) :
    Frame renewed port w w' := by
  refine ⟨h.now_le, h.ttl, fun other _ hnone => h.unowned other hnone, ?_⟩
  intro other run _ hrun
  cases hidle : run.idleExpired w.now w.session.runIdleTtl with
  | true =>
    right
    exact ⟨idleExpired_mono h.now_le hidle, h.expired other run hrun hidle⟩
  | false =>
    left
    obtain ⟨hkept, hlease⟩ := h.owned other run hrun hidle
    refine ⟨hkept, ?_⟩
    rcases hlease with hsame | ⟨lease, hlease, hrenews⟩
    · exact .inl hsame
    · exact .inr ⟨lease, hlease, hrenewed other lease hrenews⟩

theorem Forgets.frame {renewed : String → ControlLease → Prop} {port : String} {w w' : World}
    (h : Forgets port w w') : Frame renewed port w w' := by
  refine ⟨h.now_le, by rw [h.session, Session.runIdleTtl_forget], ?_, ?_⟩
  · intro other hne hnone
    rw [h.session, Session.ownedRun_forget, Session.lease_forget, if_neg hne, if_neg hne]
    exact ⟨hnone, rfl⟩
  · intro other run hne hrun
    left
    rw [h.session, Session.ownedRun_forget, Session.lease_forget, if_neg hne, if_neg hne]
    exact ⟨hrun, .inl rfl⟩

/-! ## One turn -/

/-- Between two turns the Session owns no Run on the port. -/
structure Waiting (args : StartArgs) (actor : Actor) (approval : PendingRunStartApproval)
    (loop : Loop) (w : World) : Prop where
  free : w.session.ownedRun args.port = none
  actor : ∀ c, w.session.connection = some c → c.actor = actor
  approval : loop.pendingApproval = none ∨ loop.pendingApproval = some approval
  side : loop.pendingApproval = none → w.side = .none

/-- What one turn does, where `undisturbed` says that it keeps the connection. -/
def Effects (renewed : String → ControlLease → Prop) (args : StartArgs) (actor : Actor)
    (approval : PendingRunStartApproval) (undisturbed : Prop) (w : World) : Turned → Prop
  | .returned result w' =>
      w.now ≤ w'.now ∧ (undisturbed → Frame renewed args.port w w') ∧
        (¬ undisturbed → w'.session.connection = none) ∧
        ∀ error, result = .error error → w'.session.ownedRun args.port = none ∧ w'.side = .none
  | .again loop' w' =>
      undisturbed ∧ Frame renewed args.port w w' ∧ Waiting args actor approval loop' w'

section

variable {renewed : String → ControlLease → Prop} {args : StartArgs} {actor : Actor}
  {approval : PendingRunStartApproval} {undisturbed undisturbed' : Prop} {w w' : World}
  {t : Turn} {loop : Loop}

theorem Effects.after (w' : World) {turned : Turned} (hframe : Frame renewed args.port w w')
    (h : Effects renewed args actor approval undisturbed w' turned) :
    Effects renewed args actor approval undisturbed w turned := by
  cases turned with
  | returned result w'' =>
    obtain ⟨hnow, hkept, hlost, hnothing⟩ := h
    exact ⟨hframe.now_le.trans hnow, fun hund => hframe.trans (hkept hund), hlost, hnothing⟩
  | again loop' w'' =>
    obtain ⟨hund, hkept, hwaiting⟩ := h
    exact ⟨hund, hframe.trans hkept, hwaiting⟩

theorem Effects.congr {turned : Turned} (hiff : undisturbed ↔ undisturbed')
    (h : Effects renewed args actor approval undisturbed w turned) :
    Effects renewed args actor approval undisturbed' w turned := by
  rw [propext hiff] at h
  exact h

/-- A turn which disconnects and fails. -/
theorem effects_disconnect (error : String) (hnow : w.now ≤ w'.now) (hund : ¬ undisturbed) :
    Effects renewed args actor approval undisturbed w
      (.returned (.error error) w'.disconnect) :=
  ⟨hnow, fun h => absurd h hund, fun _ => rfl, fun _ _ => ⟨rfl, rfl⟩⟩

/-- A turn which fails because the approval is over. -/
theorem effects_over (error : String) (hfree : w.session.ownedRun args.port = none)
    (hund : undisturbed) :
    Effects renewed args actor approval undisturbed w
      (.returned (.error error) { w with side := .none }) :=
  ⟨le_refl _, fun _ => Frame.of_session (le_refl _) rfl, fun h => absurd hund h,
    fun _ _ => ⟨hfree, rfl⟩⟩

theorem giveUp_effects (ht : Healthy args actor approval t) (message : String)
    (hfree : w.session.ownedRun args.port = none) :
    Effects renewed args actor approval (Confirmed t.cancel) w
      (w.giveUp t approval.id message) := by
  unfold giveUp cancelRunStart
  cases hresult : t.cancel.result with
  | ok result =>
    rw [ht.cancel result hresult] at hresult
    rw [call, callWithTimeout_ok ht.cancel_delay hresult]
    simp only [if_true]
    apply Effects.after (w.wait t.cancel.delay)
    · exact Frame.of_session (Nat.le_add_right _ _) rfl
    · exact effects_over message hfree ⟨_, hresult⟩
  | error error =>
    rw [call, callWithTimeout_error ht.cancel_delay hresult]
    apply effects_disconnect
    · split_ifs <;> exact Nat.le_add_right _ _
    · rintro ⟨result, hok⟩
      rw [hresult] at hok
      cases hok

theorem frame_insertRun {lease : ControlLease} {run : OwnedRun} {side : PortSide} :
    Frame renewed args.port w { w with
      session := (w.session.insertLease args.port lease).insertRun args.port run
      side := side } := by
  refine ⟨le_refl _, rfl, ?_, ?_⟩
  · intro other hne hnone
    simp only [Session.ownedRun_insertRun_of_ne _ _ hne, Session.ownedRun_insertLease,
      Session.lease_insertRun, Session.lease_insertLease_of_ne _ _ hne]
    exact ⟨hnone, trivial⟩
  · intro other owned hne hrun
    left
    simp only [Session.ownedRun_insertRun_of_ne _ _ hne, Session.ownedRun_insertLease,
      Session.lease_insertRun, Session.lease_insertLease_of_ne _ _ hne]
    exact ⟨hrun, .inl trivial⟩

theorem lease_insertLease_self {port : String} {lease : ControlLease} {s : Session}
    (h : s.connection.isSome = true) : (s.insertLease port lease).lease port = some lease := by
  obtain ⟨c, hc⟩ := Option.isSome_iff_exists.mp h
  simp [Session.lease, Session.insertLease, hc]

theorem granted_effects (ht : Healthy args actor approval t) (runHandle : String)
    (lease : ControlLease) (run : RunInfo) (hconnected : w.session.connection.isSome = true) :
    Effects renewed args actor approval (t.callerGoneAtGrant = true → Quiet t.release) w
      (w.granted args runHandle t args.requestId lease run) := by
  unfold granted
  rw [if_neg (not_not.mpr rfl)]
  dsimp only
  generalize hw' : World.mk ((w.session.insertLease args.port lease).insertRun args.port
    (OwnedRun.newWithHandle run.id args.runToken runHandle w.now)) w.now PortSide.running = w'
  have hframe : Frame renewed args.port w w' := by
    rw [← hw']
    exact frame_insertRun
  have hlease : w'.session.lease args.port = some lease := by
    rw [← hw', Session.lease_insertRun]
    exact lease_insertLease_self hconnected
  apply Effects.after _ hframe
  cases hgone : t.callerGoneAtGrant with
  | false =>
    rw [if_neg (by decide)]
    refine ⟨le_refl _, fun _ => Frame.of_session (le_refl _) rfl, ?_, ?_⟩
    · intro hloud
      exact absurd (fun h => absurd h (by decide)) hloud
    · intro error herror
      cases herror
  | true =>
    rw [if_pos rfl]
    by_cases hquiet : Quiet t.release
    · have hforgets : Forgets args.port w' (w'.bestEffortRelease args.port t.release) :=
        bestEffortRelease_quiet ht.release_delay fun _ => hquiet
      refine ⟨hforgets.now_le, fun _ => ?_, fun hloud => absurd (fun _ => hquiet) hloud, ?_⟩
      · exact hforgets.frame.trans (Frame.of_session (le_refl _) rfl)
      · intro error _
        constructor
        · simp [hforgets.session, Session.ownedRun_forget]
        · cases hresult : t.release.result with
          | ok result => rw [ht.release result hresult]
          | error error => rfl
    · have hloud := bestEffortRelease_loud ht.release_delay hlease hquiet
      refine ⟨hloud.2.2, fun h => absurd (h rfl) hquiet, fun _ => hloud.1, ?_⟩
      intro error _
      constructor
      · simp [Session.ownedRun, hloud.1]
      · cases hresult : t.release.result with
        | ok result => rw [ht.release result hresult]
        | error error => rfl

theorem rest_effects (w : World) (loop : Loop) (ht : Healthy args actor approval t)
    (hrenewed : ∀ other lease, Renews (t.renewal other) lease → renewed other lease)
    (hconnected : w.session.connection.isSome = true) (hwaiting : Waiting args actor approval loop w)
    (hpending : loop.pendingApproval = some approval) :
    Effects renewed args actor approval
      (loop.nextRenewal ≤ w.now → w.Renewable t.idleRelease t.renewal) w
      (w.rest args t loop) := by
  unfold rest
  by_cases hdue : loop.nextRenewal ≤ w.now
  · rw [if_pos hdue]
    dsimp only
    by_cases hrenewable : w.Renewable t.idleRelease t.renewal
    · have hall := renewAll_renewable ht.idleRelease_delay ht.renewal hconnected hrenewable
      have hstill : (w.renewAll t.idleRelease t.renewal).session.connection.isSome = true := by
        rw [hall.connected, hconnected]
      rw [if_neg (by
        rw [Option.isNone_iff_eq_none, ← Option.not_isSome_iff_eq_none, hstill]
        decide)]
      refine ⟨fun _ => hrenewable, ?_, ?_⟩
      · exact (hall.frame hrenewed).trans (Frame.of_session (Nat.le_add_right _ _) rfl)
      · refine ⟨(hall.unowned args.port hwaiting.free).1, ?_, .inr hpending, ?_⟩
        · intro c hc
          obtain ⟨before, hbefore⟩ := Option.isSome_iff_exists.mp hconnected
          rw [hall.actor before c hbefore hc]
          exact hwaiting.actor before hbefore
        · intro hnone
          simp [hpending] at hnone
    · have hlost := renewAll_lost ht.idleRelease_delay ht.renewal hconnected hrenewable
      rw [if_pos (by rw [hlost.connection]; rfl)]
      refine ⟨hlost.now_le, fun h => absurd (h hdue) hrenewable, fun _ => hlost.connection, ?_⟩
      intro error _
      exact ⟨by simp [Session.ownedRun, hlost.connection], hlost.side⟩
  · rw [if_neg hdue]
    refine ⟨fun h => absurd h hdue, Frame.of_session (Nat.le_add_right _ _) rfl, ?_⟩
    exact ⟨hwaiting.free, hwaiting.actor, hwaiting.approval, hwaiting.side⟩

theorem pending_effects (ht : Healthy args actor approval t)
    (hrenewed : ∀ other lease, Renews (t.renewal other) lease → renewed other lease)
    (hmatches : matchesRequest args actor approval = true)
    (hconnected : w.session.connection.isSome = true) (hwaiting : Waiting args actor approval loop w)
    (hard : ℕ) :
    Effects renewed args actor approval
      (loop.nextRenewal ≤ w.now → w.Renewable t.idleRelease t.renewal) w
      (w.pending args hard t loop approval) := by
  obtain ⟨c, hc⟩ := Option.isSome_iff_exists.mp hconnected
  have hsame : (w.session.connection.any fun connection =>
      matchesRequest args connection.actor approval) = true := by
    rw [hc, Option.any_some, hwaiting.actor c hc]
    exact hmatches
  have hunchanged : ¬ (loop.pendingApproval.any fun previous => previous ≠ approval) = true := by
    rcases hwaiting.approval with hnone | hsome
    · simp [hnone]
    · simp [hsome]
  unfold pending
  rw [if_neg (by simp [hsame]), if_neg hunchanged]
  apply Effects.after { w with side := .waiting }
  · exact Frame.of_session (le_refl _) rfl
  · refine rest_effects { w with side := .waiting } { loop with
      pendingApproval := some approval
      approvalDeadline := min hard (runStartDeadline w.now t.wallNow approval.expiresWallTimeNs
        args.policy.maxWait args.policy.expiryGrace) } ht hrenewed hconnected ?_ rfl
    refine ⟨hwaiting.free, hwaiting.actor, .inr rfl, ?_⟩
    intro hnone
    cases hnone

/-- What the answer to the poll still has to keep. -/
def SettlesQuietly (t : Turn) (loop : Loop) (w : World) : Prop :=
  (granting t.poll = true ∧ t.callerGoneAtGrant = true → Quiet t.release) ∧
    (askingHuman t.poll = true ∧ loop.nextRenewal ≤ w.now →
      w.Renewable t.idleRelease t.renewal)

theorem settle_effects (ht : Healthy args actor approval t)
    (hrenewed : ∀ other lease, Renews (t.renewal other) lease → renewed other lease)
    (hmatches : matchesRequest args actor approval = true)
    (hconnected : w.session.connection.isSome = true) (hwaiting : Waiting args actor approval loop w)
    (runHandle : String) (hard : ℕ) {result : CommandResult} (hresult : t.poll.result = .ok result) :
    Effects renewed args actor approval (SettlesQuietly t loop w) w
      (settle args runHandle hard t loop (.ok result, w)) := by
  rcases ht.poll result hresult with ⟨lease, run, rfl⟩ | rfl | rfl | rfl | rfl
  · refine Effects.congr ?_ (granted_effects ht runHandle lease run hconnected)
    simp [SettlesQuietly, granting, askingHuman, hresult]
  · refine Effects.congr ?_ (pending_effects ht hrenewed hmatches hconnected hwaiting hard)
    simp [SettlesQuietly, granting, askingHuman, hresult]
  all_goals
    apply effects_over _ hwaiting.free
    simp [SettlesQuietly, granting, askingHuman, hresult]

theorem connect_ok {greeting : Except String Actor} {w : World}
    (h : w.session.connection = none → ∃ greeted, greeting = .ok greeted) :
    (w.connect greeting).1 = .ok () ∧ (w.connect greeting).2.session.connection.isSome = true := by
  unfold connect
  cases hconnection : w.session.connection with
  | some connection => simp [hconnection]
  | none =>
    obtain ⟨greeted, hgreeted⟩ := h hconnection
    simp [hgreeted]

theorem connect_error {greeting : Except String Actor} {w : World}
    (h : ¬ (w.session.connection = none → ∃ greeted, greeting = .ok greeted)) :
    ∃ error, w.connect greeting = (.error error, w) := by
  rw [Classical.not_imp] at h
  obtain ⟨hconnection, hgreeting⟩ := h
  unfold connect
  rw [hconnection]
  cases greeting with
  | ok greeted => exact absurd ⟨greeted, rfl⟩ hgreeting
  | error error => exact ⟨error, rfl⟩

/-- A new connection starts without Runs and leases, as the Session had none. -/
theorem connect_frame {greeting : Except String Actor} {port : String} {w : World} :
    Frame renewed port w (w.connect greeting).2 := by
  unfold connect
  cases hconnection : w.session.connection with
  | some connection => exact Frame.of_session (le_refl _) rfl
  | none =>
    cases greeting with
    | error error => exact Frame.of_session (le_refl _) rfl
    | ok greeted =>
      have hnone : ∀ other, w.session.ownedRun other = none := by
        intro other
        simp [Session.ownedRun, hconnection]
      refine ⟨le_refl _, rfl, ?_, ?_⟩
      · intro other _ _
        exact ⟨rfl, by simp [Session.lease, hconnection, OrderedMap.empty, OrderedMap.lookup]⟩
      · intro other run _ hrun
        rw [hnone other] at hrun
        cases hrun

theorem connect_waiting (hconnect : ∀ greeted, t.connect = .ok greeted → greeted = actor)
    (hwaiting : Waiting args actor approval loop w) :
    Waiting args actor approval loop (w.connect t.connect).2 := by
  unfold connect
  cases hconnection : w.session.connection with
  | some connection => exact hwaiting
  | none =>
    cases hgreeting : t.connect with
    | error error => exact hwaiting
    | ok greeted =>
      refine ⟨rfl, ?_, hwaiting.approval, hwaiting.side⟩
      intro c hc
      cases hc
      exact hconnect greeted hgreeting

theorem poll_effects (ht : Healthy args actor approval t)
    (hrenewed : ∀ other lease, Renews (t.renewal other) lease → renewed other lease)
    (hmatches : matchesRequest args actor approval = true)
    (hwaiting : Waiting args actor approval loop w) (runHandle : String) (hard timeout : ℕ) :
    Effects renewed args actor approval
      ((w.session.connection = none → ∃ greeted, t.connect = .ok greeted) ∧
        t.poll.delay ≤ timeout ∧ Confirmed t.poll ∧
        SettlesQuietly t loop ((w.connect t.connect).2.wait t.poll.delay)) w
      (settle args runHandle hard t loop (w.poll t timeout)) := by
  by_cases hconnects : w.session.connection = none → ∃ greeted, t.connect = .ok greeted
  swap
  · obtain ⟨error, herror⟩ := connect_error hconnects
    simp only [poll, herror]
    exact effects_disconnect _ (le_refl _) fun h => hconnects h.1
  obtain ⟨hok, hconnected⟩ := connect_ok hconnects
  have hframe : Frame renewed args.port w (w.connect t.connect).2 := connect_frame
  have hwaiting' := connect_waiting ht.connect hwaiting
  generalize hconnect : w.connect t.connect = connect at hok hconnected hframe hwaiting'
  obtain ⟨outcome, w'⟩ := connect
  simp only at hok hconnected hframe hwaiting'
  subst hok
  simp only [poll, hconnect]
  apply Effects.after _ hframe
  by_cases hdelay : t.poll.delay ≤ timeout
  · cases hresult : t.poll.result with
    | ok result =>
      rw [callWithTimeout_ok hdelay hresult]
      apply Effects.after (w'.wait t.poll.delay)
      · exact Frame.of_session (Nat.le_add_right _ _) rfl
      · have hsettle := settle_effects ht hrenewed hmatches (w := w'.wait t.poll.delay)
          hconnected ⟨hwaiting'.free, hwaiting'.actor, hwaiting'.approval, hwaiting'.side⟩
          runHandle hard hresult
        apply hsettle.congr
        exact ⟨fun h => ⟨hconnects, hdelay, ⟨result, hresult⟩, h⟩, fun h => h.2.2.2⟩
    | error error =>
      rw [callWithTimeout_error hdelay hresult]
      apply effects_disconnect
      · split_ifs <;> exact Nat.le_add_right _ _
      · rintro ⟨-, -, ⟨result, hconfirmed⟩, -⟩
        rw [hresult] at hconfirmed
        cases hconfirmed
  · obtain ⟨error, hlate⟩ := callWithTimeout_late (w := w') (not_le.mp hdelay)
    rw [hlate]
    exact effects_disconnect _ (Nat.le_add_right _ _) fun h => hdelay h.2.1

theorem turn_effects (ht : Healthy args actor approval t)
    (hrenewed : ∀ other lease, Renews (t.renewal other) lease → renewed other lease)
    (hmatches : matchesRequest args actor approval = true)
    (hwaiting : Waiting args actor approval loop w) (runHandle : String) (hard : ℕ) :
    Effects renewed args actor approval (UndisturbedTurn t loop w) w
      (turn args runHandle hard t loop w) := by
  have hstart : Frame renewed args.port w (w.wait t.waited) :=
    Frame.of_session (Nat.le_add_right _ _) rfl
  have hover (message : PendingRunStartApproval → String) (late : String)
      {outcome : Turned}
      (hgiven : ∀ approval, loop.pendingApproval = some approval →
        outcome = (w.wait t.waited).giveUp t approval.id (message approval))
      (hlate : loop.pendingApproval = none →
        outcome = .returned (.error late) (w.wait t.waited)) :
      Effects renewed args actor approval
        (loop.pendingApproval.isSome → Confirmed t.cancel) (w.wait t.waited) outcome := by
    rcases hwaiting.approval with hnone | hsome
    · rw [hlate hnone]
      simp only [hnone]
      refine ⟨le_refl _, fun _ => Frame.of_session (le_refl _) rfl, ?_, ?_⟩
      · intro h
        exact absurd (fun h => absurd h (by decide)) h
      · intro error _
        exact ⟨hwaiting.free, hwaiting.side hnone⟩
    · rw [hgiven _ hsome]
      simp only [hsome]
      refine Effects.congr ?_ (giveUp_effects ht (message approval) hwaiting.free)
      simp
  apply Effects.after _ hstart
  unfold turn UndisturbedTurn
  dsimp only
  by_cases hgone : t.callerGone = true
  · rw [if_pos hgone, if_pos (.inl hgone)]
    exact hover (fun _ => _) _ (fun _ h => by rw [h]) (fun h => by rw [h])
  rw [if_neg hgone]
  by_cases hdeadline : loop.approvalDeadline ≤ (w.wait t.waited).now
  · rw [if_pos hdeadline, if_pos (.inr hdeadline)]
    exact hover _ _ (fun _ h => by rw [h]) (fun h => by rw [h])
  rw [if_neg hdeadline, if_neg (by
    rintro (h | h)
    · exact hgone h
    · exact hdeadline h)]
  apply Effects.after ((w.wait t.waited).wait t.prepared)
  · exact Frame.of_session (Nat.le_add_right _ _) rfl
  by_cases htimeout : pollTimeout loop ((w.wait t.waited).wait t.prepared) = 0
  · rw [if_pos htimeout]
    refine ⟨fun h => absurd htimeout h, Frame.of_session (le_refl _) rfl, ?_⟩
    exact ⟨hwaiting.free, hwaiting.actor, hwaiting.approval, hwaiting.side⟩
  · rw [if_neg htimeout]
    have hpoll := poll_effects (w := (w.wait t.waited).wait t.prepared) ht hrenewed hmatches
      ⟨hwaiting.free, hwaiting.actor, hwaiting.approval, hwaiting.side⟩
      runHandle hard (pollTimeout loop ((w.wait t.waited).wait t.prepared))
    apply hpoll.congr
    exact ⟨fun h _ => h, fun h => h htimeout⟩

/-! ## The call -/

/-- A lease which a turn renewed. -/
def RenewedBy (turns : List Turn) (port : String) (lease : ControlLease) : Prop :=
  ∃ t ∈ turns, Renews (t.renewal port) lease

/-- What a call leaves, where `undisturbed` says that it kept the connection. -/
structure CallEffects (turns : List Turn) (args : StartArgs) (undisturbed : Prop) (w : World)
    (result : Except String StartedRun) (w' : World) : Prop where
  frame : undisturbed → Frame (RenewedBy turns) args.port w w'
  lost : ¬ undisturbed → w'.session.connection = none
  nothing : ∀ error, result = .error error →
    w'.session.ownedRun args.port = none ∧ w'.side = .none

theorem runTurns_effects {all : List Turn} (turns : List Turn)
    (hmatches : matchesRequest args actor approval = true) {runHandle : String} {hard : ℕ} :
    ∀ {loop : Loop} {w : World}, (∀ t ∈ turns, Healthy args actor approval t ∧ t ∈ all) →
      Waiting args actor approval loop w →
      ∀ {result : Except String StartedRun} {w' : World},
        runTurns args runHandle hard turns loop w = some (result, w') →
        CallEffects all args (Undisturbed args runHandle hard turns loop w) w result w' := by
  induction turns with
  | nil =>
    intro loop w hhealthy hwaiting result w' hrun
    cases hrun
  | cons t ts ih =>
    intro loop w hhealthy hwaiting result w' hrun
    obtain ⟨ht, hmem⟩ := hhealthy t List.mem_cons_self
    have hrenewed : ∀ other lease, Renews (t.renewal other) lease → RenewedBy all other lease :=
      fun other lease hrenews => ⟨t, hmem, hrenews⟩
    have hturn := turn_effects ht hrenewed hmatches hwaiting runHandle hard
    rw [runTurns] at hrun
    rw [Undisturbed]
    generalize turn args runHandle hard t loop w = turned at hrun hturn
    cases turned with
    | returned outcome w₁ =>
      simp only [Option.some.injEq, Prod.mk.injEq] at hrun
      obtain ⟨rfl, rfl⟩ := hrun
      obtain ⟨-, hframe, hlost, hnothing⟩ := hturn
      simp only [and_true]
      exact ⟨hframe, hlost, hnothing⟩
    | again loop' w₁ =>
      obtain ⟨hund, hframe, hwaiting'⟩ := hturn
      have hrest := ih (fun t ht => hhealthy t (List.mem_cons_of_mem _ ht)) hwaiting' hrun
      simp only [hund, true_and]
      exact ⟨fun h => hframe.trans (hrest.frame h), hrest.lost, hrest.nothing⟩

/-- The leases and Runs of the other ports are unchanged, except for renewals and Runs whose
idle time is over. -/
def LeavesOthers (turns : List Turn) (port : String) (w w' : World) : Prop :=
  ∀ other, other ≠ port →
    (w.session.ownedRun other = none → w'.session.ownedRun other = none) ∧
    ∀ run, w.session.ownedRun other = some run →
      (w'.session.ownedRun other = some run ∧
        (w'.session.lease other = w.session.lease other ∨
          ∃ lease, w'.session.lease other = some lease ∧ RenewedBy turns other lease)) ∨
      (run.idleExpired w'.now w.session.runIdleTtl = true ∧ w'.session.ownedRun other = none ∧
        w'.session.lease other = none)

/-- A call which fails leaves no Run of the Session and no approval on the port. -/
def LeavesNothing (port : String) (result : Except String StartedRun) (w' : World) : Prop :=
  ∀ error, result = .error error → w'.session.ownedRun port = none ∧ w'.side = .none

/-- Nothing makes the Session disconnect in the call. -/
def UndisturbedCall (args : StartArgs) (turns : List Turn) (w : World) : Prop :=
  ∀ runHandle, args.runHandle = .ok runHandle →
    Undisturbed args runHandle (hardApprovalDeadline args.policy w.now) turns
      (firstLoop args.policy w.now) w

/-- The Runs on the other ports have been idle for their whole time. -/
def OthersExpired (port : String) (w : World) (now : ℕ) : Prop :=
  ∀ other run, other ≠ port → w.session.ownedRun other = some run →
    run.idleExpired now w.session.runIdleTtl = true

theorem Frame.leavesOthers {turns : List Turn} {port : String} {w w' : World}
    (h : Frame (RenewedBy turns) port w w') : LeavesOthers turns port w w' :=
  fun other hne => ⟨fun hnone => (h.unowned other hne hnone).1, fun run => h.owned other run hne⟩

theorem leavesOthers_of_lost {turns : List Turn} {port : String} {w w' : World}
    (h : w'.session.connection = none) :
    LeavesOthers turns port w w' ↔ OthersExpired port w w'.now := by
  have hrun : ∀ other, w'.session.ownedRun other = none := by
    intro other
    simp [Session.ownedRun, h]
  have hlease : ∀ other, w'.session.lease other = none := by
    intro other
    simp [Session.lease, h]
  constructor
  · intro hothers other run hne howned
    rcases (hothers other hne).2 run howned with ⟨hkept, -⟩ | ⟨hexpired, -⟩
    · rw [hrun other] at hkept
      cases hkept
    · exact hexpired
  · intro hexpired other hne
    exact ⟨fun _ => hrun other,
      fun run howned => .inr ⟨hexpired other run hne howned, hrun other, hlease other⟩⟩

theorem startRun_effects {turns : List Turn} (hmatches : matchesRequest args actor approval = true)
    (hactor : ∀ c, w.session.connection = some c → c.actor = actor) (hside : w.side = .none)
    (hhealthy : ∀ t ∈ turns, Healthy args actor approval t)
    (hfree : w.session.ownedRun args.port = none) {result : Except String StartedRun}
    (hrun : startRun args turns w = some (result, w')) :
    CallEffects turns args (UndisturbedCall args turns w) w result w' := by
  unfold startRun at hrun
  simp only [hfree] at hrun
  unfold UndisturbedCall
  cases hhandle : args.runHandle with
  | error error =>
    simp only [hhandle, Option.some.injEq, Prod.mk.injEq] at hrun
    obtain ⟨rfl, rfl⟩ := hrun
    refine ⟨fun _ => Frame.of_session (le_refl _) rfl, ?_, fun _ _ => ⟨hfree, hside⟩⟩
    intro h
    exact absurd (fun _ hok => by cases hok) h
  | ok runHandle =>
    simp only [hhandle] at hrun
    have hcall := runTurns_effects turns hmatches (fun t ht => ⟨hhealthy t ht, ht⟩)
      ⟨hfree, hactor, .inl rfl, fun _ => hside⟩ hrun
    simp only [Except.ok.injEq, forall_eq']
    exact hcall

/-- A call leaves the other ports alone, and a failed call leaves nothing, exactly if the port
is free and the Session has no reason to disconnect, or no other Run was worth keeping. -/
theorem startRun_leaves_others_iff {turns : List Turn}
    (hmatches : matchesRequest args actor approval = true)
    (hactor : ∀ c, w.session.connection = some c → c.actor = actor)
    (hside : w.session.ownedRun args.port = none → w.side = .none)
    (hhealthy : ∀ t ∈ turns, Healthy args actor approval t)
    {result : Except String StartedRun}
    (hrun : startRun args turns w = some (result, w')) :
    LeavesOthers turns args.port w w' ∧ LeavesNothing args.port result w' ↔
      w.session.ownedRun args.port = none ∧
        (UndisturbedCall args turns w ∨ OthersExpired args.port w w'.now) := by
  cases howned : w.session.ownedRun args.port with
  | some run =>
    constructor
    · intro h
      unfold startRun at hrun
      simp only [howned, Option.some.injEq, Prod.mk.injEq] at hrun
      obtain ⟨rfl, rfl⟩ := hrun
      have hnone := (h.2 _ rfl).1
      rw [howned] at hnone
      cases hnone
    · intro h
      cases h.1
  | none =>
    have hcall := startRun_effects hmatches hactor (hside howned) hhealthy howned hrun
    by_cases hund : UndisturbedCall args turns w
    · exact ⟨fun _ => ⟨rfl, .inl hund⟩, fun _ => ⟨(hcall.frame hund).leavesOthers, hcall.nothing⟩⟩
    · rw [leavesOthers_of_lost (hcall.lost hund)]
      constructor
      · intro h
        exact ⟨rfl, .inr h.1⟩
      · rintro ⟨-, h | h⟩
        · exact absurd h hund
        · exact ⟨h, hcall.nothing⟩

end

/-! ## An approval which expires under a poll

The daemon drops an approval after five seconds.  Its answer to the first poll takes four
seconds, the approval is pending and has one second left; the second poll finds it expired. -/

def sampleActor : Actor := ⟨"agent-1", "mcp", .agent⟩

def sampleArgs : StartArgs where
  port := "/dev/ttyUSB0"
  label := "flash"
  metadata := []
  requestId := 7
  runToken := 8
  runHandle := .ok "handle"
  policy := ⟨120 * second, 5 * second, second / 4, 2 * second⟩

def sampleApproval : PendingRunStartApproval where
  id := 7
  port := "/dev/ttyUSB0"
  requester := sampleActor
  requiredApprover := ⟨"human-1", "desktop", .human⟩
  label := "flash"
  metadata := []
  controlTtlMs := leaseTtlMs
  daemonEpoch := 1
  generation := 1
  expectedControlId := 2
  expectedFence := 3
  requestedWallTimeNs := 0
  expiresWallTimeNs := 5 * second

def sampleLease : ControlLease := ⟨4, sampleActor, 1, 1, 5, 0, 60 * second⟩

/-- A tool call is using the Run on the other port. -/
def sampleWorld : World where
  session :=
    { connection := some
        { actor := sampleActor
          leases := OrderedMap.empty.insert "/dev/ttyUSB1" sampleLease
          ownedRuns := OrderedMap.empty.insert "/dev/ttyUSB1" ⟨6, 9, "other", 1, 0⟩ }
      runIdleTtl := some (600 * second) }
  now := 0
  side := .none

def sampleTurn (poll : Answer) (wallNow : ℕ) : Turn where
  waited := 0
  callerGone := false
  cancel := ⟨0, .ok (.runStartCancelled 7)⟩
  prepared := 0
  connect := .ok sampleActor
  poll := poll
  callerGoneAtGrant := false
  release := ⟨0, .ok .controlReleased⟩
  wallNow := wallNow
  idleRelease := fun _ => ⟨0, .ok .controlReleased⟩
  renewal := fun _ => ⟨0, .ok (.controlRenewed sampleLease)⟩

/-- The second poll is answered after `delay`. -/
def sampleTurns (delay : ℕ) : List Turn :=
  [sampleTurn ⟨4 * second, .ok (.runStartPending sampleApproval)⟩ (4 * second),
    sampleTurn ⟨delay, .ok (.runStartTimedOut 7)⟩ (5 * second)]

theorem sampleTurn_healthy {poll : Answer} {wallNow : ℕ} (hdelay : poll.delay ≤ defaultRpcTimeout)
    (hpoll : poll.result = .ok (.runStartPending sampleApproval) ∨
      poll.result = .ok (.runStartTimedOut 7)) :
    Healthy sampleArgs sampleActor sampleApproval (sampleTurn poll wallNow) := by
  refine ⟨?_, hdelay, ?_, Nat.zero_le _, ?_, Nat.zero_le _, ?_, fun _ => Nat.zero_le _, ?_⟩
  · intro greeted hgreeted
    cases hgreeted
    rfl
  · intro result hresult
    have hresult : poll.result = .ok result := hresult
    rcases hpoll with hpending | hover
    · rw [hpending] at hresult
      cases hresult
      exact .inr (.inl rfl)
    · rw [hover] at hresult
      cases hresult
      exact .inr (.inr (.inr (.inl rfl)))
  · intro result hresult
    cases hresult
    rfl
  · intro result hresult
    cases hresult
    rfl
  · intro port
    refine ⟨Nat.zero_le _, ?_⟩
    intro result hresult
    cases hresult
    exact ⟨sampleLease, rfl⟩

theorem sampleTurns_healthy {delay : ℕ} (hdelay : delay ≤ defaultRpcTimeout) :
    ∀ t ∈ sampleTurns delay, Healthy sampleArgs sampleActor sampleApproval t := by
  intro t ht
  simp only [sampleTurns, List.mem_cons, List.not_mem_nil, or_false] at ht
  rcases ht with rfl | rfl
  · exact sampleTurn_healthy (by decide) (.inl rfl)
  · exact sampleTurn_healthy hdelay (.inr rfl)

/-- The Run on the other port after the call. -/
def sampleOther (delay : ℕ) : Option (Option OwnedRun) :=
  (startRun sampleArgs (sampleTurns delay) sampleWorld).map fun run =>
    run.2.session.ownedRun "/dev/ttyUSB1"

/-- An answer within three seconds costs the Run on the other port. -/
theorem late_poll_drops_others :
    (∀ t ∈ sampleTurns (3 * second), Healthy sampleArgs sampleActor sampleApproval t) ∧
      ∃ result w', startRun sampleArgs (sampleTurns (3 * second)) sampleWorld =
          some (result, w') ∧
        ¬ LeavesOthers (sampleTurns (3 * second)) sampleArgs.port sampleWorld w' := by
  refine ⟨sampleTurns_healthy (by decide), ?_⟩
  have hother : sampleOther (3 * second) = some none := by decide
  obtain ⟨⟨result, w'⟩, hrun, hgone⟩ := Option.map_eq_some_iff.mp hother
  refine ⟨result, w', hrun, ?_⟩
  intro hothers
  have howned : sampleWorld.session.ownedRun "/dev/ttyUSB1" = some ⟨6, 9, "other", 1, 0⟩ := by
    decide
  rcases (hothers "/dev/ttyUSB1" (by decide)).2 _ howned with ⟨hkept, -⟩ | ⟨hexpired, -⟩
  · rw [hgone] at hkept
    cases hkept
  · simp [OwnedRun.idleExpired] at hexpired

example : (sampleOther second).isSome = true := by decide +kernel

theorem startRun_leaves_others_expired :
    ∃ result w', startRun sampleArgs (sampleTurns second) sampleWorld = some (result, w') ∧
      (LeavesOthers (sampleTurns second) sampleArgs.port sampleWorld w' ∧
          LeavesNothing sampleArgs.port result w' ↔
        sampleWorld.session.ownedRun sampleArgs.port = none ∧
          (UndisturbedCall sampleArgs (sampleTurns second) sampleWorld ∨
            OthersExpired sampleArgs.port sampleWorld w'.now)) := by
  have hother : (sampleOther second).isSome = true := by decide
  obtain ⟨other, hother⟩ := Option.isSome_iff_exists.mp hother
  obtain ⟨⟨result, w'⟩, hrun, -⟩ := Option.map_eq_some_iff.mp hother
  refine ⟨result, w', hrun, ?_⟩
  apply startRun_leaves_others_iff (by decide) _ (fun _ => rfl) (sampleTurns_healthy (by decide))
    hrun
  intro c hc
  cases hc
  rfl

end SerialPlatform.Agent.World
