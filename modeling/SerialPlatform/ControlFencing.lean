import SerialPlatform.ControlState

/-!
# Fencing over whole histories of the control lease

A run is any list of operations, with any actors, TTLs, clock readings and
lease ids.  One inversion lemma says everything an operation can do to the
holder; the history invariant then relates the leases granted and revoked so
far to the lease which is current.
-/

namespace SerialPlatform

/-- One call of a `ControlState` operation, with the clock readings and the
fresh lease id which it consumes. -/
inductive ControlOp where
  | acquire (actor : Actor) (mode : ControlMode) (ttlMs : ℕ) (wallNowNs : ℤ)
      (now : ℕ) (freshId : Uuid)
  | grantIfIdle (actor : Actor) (ttlMs : ℕ) (wallNowNs : ℤ) (now : ℕ)
      (freshId : Uuid)
  | transferExact (ownerId : String) (controlId : Uuid) (fence : ℕ) (actor : Actor)
      (ttlMs : ℕ) (wallNowNs : ℤ) (now : ℕ) (freshId : Uuid)
  | renew (actorId : String) (controlId : Uuid) (fence : ℕ) (ttlMs : ℕ)
      (wallNowNs : ℤ) (now : ℕ)
  | release (actorId : String) (controlId : Uuid) (fence : ℕ) (wallNowNs : ℤ)
      (now : ℕ)
  | expire (wallNowNs : ℤ) (now : ℕ)
  | disconnect (actorId : String) (wallNowNs : ℤ) (now : ℕ)
  | changeGeneration (generation : ℕ) (wallNowNs : ℤ) (now : ℕ)

inductive ControlOutcome where
  | acquired (outcome : AcquireOutcome)
  | grantedIdle (result : Except ControlError ControlLease)
  | transferred (result : Except ControlError (ControlLease × ControlLease))
  | renewed (result : Except ControlError ControlLease)
  | released (result : Except ControlError ReleaseOutcome)
  | dropped (outcome : Option ReleaseOutcome)

namespace ControlOutcome

/-- The lease which the operation returned as newly granted. -/
def granted : ControlOutcome → Option ControlLease
  | .acquired (.granted lease) => some lease
  | .acquired (.takenOver _ lease) => some lease
  | .grantedIdle (.ok lease) => some lease
  | .transferred (.ok (_, lease)) => some lease
  | _ => none

/-- The lease which the operation reported as released or revoked. -/
def revoked : ControlOutcome → Option ControlLease
  | .acquired (.takenOver lease _) => some lease
  | .transferred (.ok (lease, _)) => some lease
  | .released (.ok outcome) => some outcome.released
  | .dropped (some outcome) => some outcome.released
  | _ => none

/-- The lease which the operation returned as renewed. -/
def renewedLease : ControlOutcome → Option ControlLease
  | .renewed (.ok lease) => some lease
  | _ => none

/-- The operation was refused. -/
def isError : ControlOutcome → Bool
  | .acquired (.busy _) => true
  | .grantedIdle (.error _) => true
  | .transferred (.error _) => true
  | .renewed (.error _) => true
  | .released (.error _) => true
  | _ => false

end ControlOutcome

namespace ControlState

def step (state : ControlState) : ControlOp → ControlState × ControlOutcome
  | .acquire actor mode ttlMs wall now freshId =>
      (state.acquire actor mode ttlMs wall now freshId).map id .acquired
  | .grantIfIdle actor ttlMs wall now freshId =>
      (state.grantIfIdle actor ttlMs wall now freshId).map id .grantedIdle
  | .transferExact ownerId controlId fence actor ttlMs wall now freshId =>
      (state.transferExact ownerId controlId fence actor ttlMs wall now freshId).map
        id .transferred
  | .renew actorId controlId fence ttlMs wall now =>
      (state.renew actorId controlId fence ttlMs wall now).map id .renewed
  | .release actorId controlId fence _ now =>
      (state.release actorId controlId fence now).map id .released
  | .expire _ now => (state.expire now).map id .dropped
  | .disconnect actorId _ _ => (state.disconnect actorId).map id .dropped
  | .changeGeneration generation _ _ =>
      (state.changeGeneration generation).map id .dropped

def run (state : ControlState) : List ControlOp → ControlState × List ControlOutcome
  | [] => (state, [])
  | op :: ops =>
      let (next, outcome) := state.step op
      let (last, outcomes) := next.run ops
      (last, outcome :: outcomes)

/-- The triple passes the fence check at the given monotonic time. -/
def Passes (state : ControlState) (actorId : String) (controlId : Uuid) (fence : ℕ)
    (now : ℕ) : Prop :=
  ∃ lease, state.validate actorId controlId fence now = .ok lease

end ControlState

def grantedLeases (outcomes : List ControlOutcome) : List ControlLease :=
  outcomes.filterMap ControlOutcome.granted

def revokedLeases (outcomes : List ControlOutcome) : List ControlLease :=
  outcomes.filterMap ControlOutcome.revoked

/-- Two leases carry the same token.  A renewal keeps the token and moves the
informational expiry. -/
def ControlLease.SameToken (left right : ControlLease) : Prop :=
  left.owner = right.owner ∧ left.id = right.id ∧ left.fence = right.fence

namespace ControlState

/-! ## What one operation can do -/

theorem validate_eq_ok_iff {state : ControlState} {actorId : String}
    {controlId : Uuid} {fence : ℕ} {now : ℕ} {lease : ControlLease} :
    state.validate actorId controlId fence now = .ok lease ↔
      ∃ active, state.current = some active ∧ active.lease = lease ∧
        lease.id = controlId ∧ lease.fence = fence ∧
        lease.epoch = state.daemonEpoch ∧ lease.generation = state.generation ∧
        lease.owner.id = actorId ∧ now < active.deadline := by
  unfold validate
  cases hcurrent : state.current with
  | none => simp
  | some active =>
      simp only [Option.some.injEq, exists_eq_left']
      split_ifs with hstale howner hexpired
      · simp only [false_iff]
        rintro ⟨rfl, hid, hfence, hepoch, hgeneration, -⟩
        simp [hid, hfence, hepoch, hgeneration] at hstale
      · simp only [false_iff]
        rintro ⟨rfl, -, -, -, -, hactor, -⟩
        exact howner hactor
      · simp only [false_iff]
        rintro ⟨-, -, -, -, -, -, hlive⟩
        omega
      · simp only [not_or, not_not] at hstale howner
        obtain ⟨hid, hfence, hepoch, hgeneration⟩ := hstale
        constructor
        · intro heq
          obtain rfl := Except.ok.inj heq
          exact ⟨rfl, hid, hfence, hepoch, hgeneration, howner, by omega⟩
        · rintro ⟨rfl, -⟩
          rfl

/-- Everything an operation can do to the holder of the port. -/
inductive Change (state : ControlState) :
    ControlState → Option ControlLease → Option ControlLease →
      Option ControlLease → Prop where
  | unchanged : Change state state none none none
  | granted (actor : Actor) (ttlMs : ℕ) (wall : ℤ) (now : ℕ) (freshId : Uuid)
      (hidle : state.current = none) :
      Change state (state.grant actor ttlMs wall now freshId).1
        (some (state.grant actor ttlMs wall now freshId).2) none none
  | replaced (actor : Actor) (ttlMs : ℕ) (wall : ℤ) (now : ℕ) (freshId : Uuid)
      (active : ActiveLease) (hactive : state.current = some active) :
      Change state
        ({ state with current := none }.grant actor ttlMs wall now freshId).1
        (some ({ state with current := none }.grant actor ttlMs wall now freshId).2)
        (some active.lease) none
  | renewed (active : ActiveLease) (expires : ℤ) (deadline : ℕ)
      (hactive : state.current = some active) :
      Change state
        { state with
          current := some {
            lease := { active.lease with expiresWallTimeNs := expires }
            deadline := deadline } }
        none none (some { active.lease with expiresWallTimeNs := expires })
  | dropped (active : ActiveLease) (generation : ℕ)
      (hactive : state.current = some active) :
      Change state { state with generation := generation, current := none }
        none (some active.lease) none
  | regenerated (generation : ℕ) (hidle : state.current = none) :
      Change state { state with generation := generation } none none none

theorem step_change (state : ControlState) (op : ControlOp) :
    Change state (state.step op).1 (state.step op).2.granted
      (state.step op).2.revoked (state.step op).2.renewedLease := by
  cases op with
  | acquire actor mode ttlMs wall now freshId =>
      simp only [step, acquire]
      cases hcurrent : state.current with
      | none => exact .granted actor ttlMs wall now freshId hcurrent
      | some active =>
          simp only
          split_ifs with howner hmode
          · exact .unchanged
          · exact .unchanged
          · exact .replaced actor ttlMs wall now freshId active hcurrent
  | grantIfIdle actor ttlMs wall now freshId =>
      simp only [step, grantIfIdle]
      split_ifs with hbusy
      · exact .unchanged
      · exact .granted actor ttlMs wall now freshId (by simpa using hbusy)
  | transferExact ownerId controlId fence actor ttlMs wall now freshId =>
      simp only [step, transferExact]
      cases hvalid : state.validate ownerId controlId fence now with
      | error error => exact .unchanged
      | ok lease =>
          obtain ⟨active, hactive, rfl, -⟩ := validate_eq_ok_iff.mp hvalid
          exact .replaced actor ttlMs wall now freshId active hactive
  | renew actorId controlId fence ttlMs wall now =>
      simp only [step, renew]
      cases hvalid : state.validate actorId controlId fence now with
      | error error => exact .unchanged
      | ok lease =>
          obtain ⟨active, hactive, rfl, -⟩ := validate_eq_ok_iff.mp hvalid
          exact .renewed active _ _ hactive
  | release actorId controlId fence wall now =>
      simp only [step, release]
      cases hvalid : state.validate actorId controlId fence now with
      | error error => exact .unchanged
      | ok lease =>
          obtain ⟨active, hactive, rfl, -⟩ := validate_eq_ok_iff.mp hvalid
          exact .dropped active state.generation hactive
  | expire wall now =>
      simp only [step, expire]
      cases hcurrent : state.current with
      | none => exact .unchanged
      | some active =>
          simp only
          split_ifs with hlive
          · exact .unchanged
          · exact .dropped active state.generation hcurrent
  | disconnect actorId wall now =>
      simp only [step, disconnect]
      cases hcurrent : state.current with
      | none => exact .unchanged
      | some active =>
          simp only
          split_ifs with hother
          · exact .unchanged
          · exact .dropped active state.generation hcurrent
  | changeGeneration generation wall now =>
      simp only [step, changeGeneration]
      cases hcurrent : state.current with
      | none =>
          have hchange := @Change.regenerated state generation hcurrent
          rwa [hcurrent] at hchange
      | some active => exact .dropped active generation hcurrent

/-- A refused operation leaves the state as it was. -/
theorem step_eq_self_of_isError {state : ControlState} {op : ControlOp}
    (herror : (state.step op).2.isError) : (state.step op).1 = state := by
  cases op with
  | acquire actor mode ttlMs wall now freshId =>
      simp only [step, acquire] at herror ⊢
      cases hcurrent : state.current with
      | none => simp [hcurrent, ControlOutcome.isError] at herror
      | some active =>
          simp only [hcurrent] at herror ⊢
          split_ifs at herror ⊢ with howner hmode
          · rfl
          · rfl
          · simp [ControlOutcome.isError] at herror
  | grantIfIdle actor ttlMs wall now freshId =>
      simp only [step, grantIfIdle] at herror ⊢
      split_ifs at herror ⊢ with hbusy
      · rfl
      · simp [ControlOutcome.isError] at herror
  | transferExact ownerId controlId fence actor ttlMs wall now freshId =>
      simp only [step, transferExact] at herror ⊢
      cases hvalid : state.validate ownerId controlId fence now with
      | error error => rfl
      | ok lease => simp [hvalid, ControlOutcome.isError] at herror
  | renew actorId controlId fence ttlMs wall now =>
      simp only [step, renew] at herror ⊢
      cases hvalid : state.validate actorId controlId fence now with
      | error error => rfl
      | ok lease => simp [hvalid, ControlOutcome.isError] at herror
  | release actorId controlId fence wall now =>
      simp only [step, release] at herror ⊢
      cases hvalid : state.validate actorId controlId fence now with
      | error error => rfl
      | ok lease => simp [hvalid, ControlOutcome.isError] at herror
  | expire wall now => simp [step, ControlOutcome.isError] at herror
  | disconnect actorId wall now => simp [step, ControlOutcome.isError] at herror
  | changeGeneration generation wall now =>
      simp [step, ControlOutcome.isError] at herror

/-! ## Histories -/

theorem run_append (state : ControlState) (before after : List ControlOp) :
    state.run (before ++ after) =
      (((state.run before).1.run after).1,
        (state.run before).2 ++ ((state.run before).1.run after).2) := by
  induction before generalizing state with
  | nil => simp [run]
  | cons op before ih => simp [run, ih]

@[simp] theorem grant_lease_fence (state : ControlState) (actor : Actor) (ttlMs : ℕ)
    (wall : ℤ) (now : ℕ) (freshId : Uuid) :
    (state.grant actor ttlMs wall now freshId).2.fence = state.nextFence := rfl

/-- How the leases granted and revoked so far relate to the current state. -/
structure History (state : ControlState) (granted revoked : List ControlLease) :
    Prop where
  nextFence : state.nextFence = min (granted.length + 1) u64Max
  fences : granted.length ≤ u64Max →
    granted.map ControlLease.fence = List.range' 1 granted.length
  holder : ∀ active, state.current = some active →
    ∃ earlier last, granted = earlier ++ [last] ∧ active.lease.SameToken last ∧
      active.lease.epoch = state.daemonEpoch ∧
      active.lease.generation = state.generation ∧
      last.epoch = state.daemonEpoch ∧ last.generation = state.generation
  retired : granted.length ≤ u64Max →
    ∀ lease ∈ revoked, lease.fence ≤ granted.length ∧
      ∀ active, state.current = some active → lease.fence < active.lease.fence

theorem history_new (daemonEpoch : Uuid) (generation : ℕ) (limits : ControlLimits)
    (instantMax : ℕ) :
    History (new daemonEpoch generation limits instantMax) [] [] := by
  constructor
  · rfl
  · simp
  · simp [new]
  · simp

/-- The fence of the current lease counts the leases granted so far. -/
theorem History.holder_fence {state : ControlState}
    {granted revoked : List ControlLease} (hhistory : History state granted revoked)
    {active : ActiveLease} (hactive : state.current = some active)
    (hfew : granted.length ≤ u64Max) :
    active.lease.fence = granted.length := by
  obtain ⟨earlier, last, rfl, htoken, -⟩ := hhistory.holder active hactive
  have hfences := hhistory.fences hfew
  have hlast : last.fence = 1 + earlier.length := by
    rw [List.length_append, List.length_singleton, List.range'_1_concat,
      List.map_append] at hfences
    have htail := List.append_inj_right' hfences (by simp)
    simpa using htail
  rw [htoken.2.2, hlast]
  simp [Nat.add_comm]

/-- Granting on an idle port extends the history by one fresh fence. -/
theorem History.grant {state : ControlState} {granted revoked : List ControlLease}
    (hnext : state.nextFence = min (granted.length + 1) u64Max)
    (hfences : granted.length ≤ u64Max →
      granted.map ControlLease.fence = List.range' 1 granted.length)
    (hretired : granted.length ≤ u64Max →
      ∀ lease ∈ revoked, lease.fence ≤ granted.length)
    (actor : Actor) (ttlMs : ℕ) (wall : ℤ) (now : ℕ) (freshId : Uuid) :
    History (state.grant actor ttlMs wall now freshId).1
      (granted ++ [(state.grant actor ttlMs wall now freshId).2]) revoked := by
  constructor
  · change satAdd u64Max state.nextFence 1 = _
    rw [hnext, List.length_append, List.length_singleton]
    simp only [satAdd]
    omega
  · intro hfew
    rw [List.length_append, List.length_singleton] at hfew ⊢
    have hfence : state.nextFence = 1 + granted.length := by omega
    rw [List.map_append, hfences (by omega), List.range'_1_concat]
    simp [hfence]
  · intro active hactive
    obtain rfl := Option.some.inj hactive
    exact ⟨granted, _, rfl, ⟨rfl, rfl, rfl⟩, rfl, rfl, rfl, rfl⟩
  · intro hfew lease hlease
    rw [List.length_append, List.length_singleton] at hfew ⊢
    have hle := hretired (by omega) lease hlease
    refine ⟨by omega, ?_⟩
    intro active hactive
    obtain rfl := Option.some.inj hactive
    change lease.fence < state.nextFence
    omega

/-- Giving up the current lease moves its token to the retired ones. -/
theorem History.retire {state : ControlState} {granted revoked : List ControlLease}
    (hhistory : History state granted revoked) {active : ActiveLease}
    (hactive : state.current = some active) (hfew : granted.length ≤ u64Max) :
    ∀ lease ∈ revoked ++ [active.lease], lease.fence ≤ granted.length := by
  intro lease hlease
  rcases List.mem_append.mp hlease with hold | hlast
  · exact (hhistory.retired hfew lease hold).1
  · obtain rfl := List.mem_singleton.mp hlast
    exact (hhistory.holder_fence hactive hfew).le

theorem History.change {state next : ControlState}
    {granted revoked : List ControlLease} {newlyGranted newlyRevoked renewed}
    (hhistory : History state granted revoked)
    (hchange : Change state next newlyGranted newlyRevoked renewed) :
    History next (granted ++ newlyGranted.toList) (revoked ++ newlyRevoked.toList) := by
  cases hchange with
  | unchanged => simpa using hhistory
  | granted actor ttlMs wall now freshId hidle =>
      have hgrant := History.grant hhistory.nextFence hhistory.fences
        (fun hfew lease hlease => (hhistory.retired hfew lease hlease).1)
        actor ttlMs wall now freshId
      simpa using hgrant
  | replaced actor ttlMs wall now freshId active hactive =>
      exact @History.grant { state with current := none } _ _ hhistory.nextFence hhistory.fences
        (fun hfew => hhistory.retire hactive hfew) actor ttlMs wall now freshId
  | renewed active expires deadline hactive =>
      obtain ⟨earlier, last, hsplit, htoken, hkept⟩ := hhistory.holder active hactive
      simp only [Option.toList_none, List.append_nil]
      refine ⟨hhistory.nextFence, hhistory.fences, ?_, ?_⟩
      · intro renewed hrenewed
        obtain rfl := Option.some.inj hrenewed
        exact ⟨earlier, last, hsplit, htoken, hkept⟩
      · intro hfew lease hlease
        obtain ⟨hle, hlt⟩ := hhistory.retired hfew lease hlease
        refine ⟨hle, ?_⟩
        intro renewed hrenewed
        obtain rfl := Option.some.inj hrenewed
        exact hlt active hactive
  | dropped active generation hactive =>
      simp only [Option.toList_none, List.append_nil, Option.toList_some]
      refine ⟨hhistory.nextFence, hhistory.fences, by simp, ?_⟩
      intro hfew lease hlease
      exact ⟨hhistory.retire hactive hfew lease hlease, by simp⟩
  | regenerated generation hidle =>
      simp only [Option.toList_none, List.append_nil]
      refine ⟨hhistory.nextFence, hhistory.fences, by simp [hidle], ?_⟩
      intro hfew lease hlease
      exact ⟨(hhistory.retired hfew lease hlease).1, by simp [hidle]⟩

theorem History.run {state : ControlState} {granted revoked : List ControlLease}
    (hhistory : History state granted revoked) (ops : List ControlOp) :
    History (state.run ops).1 (granted ++ grantedLeases (state.run ops).2)
      (revoked ++ revokedLeases (state.run ops).2) := by
  induction ops generalizing state granted revoked with
  | nil => simpa [ControlState.run, grantedLeases, revokedLeases] using hhistory
  | cons op ops ih =>
      have hnext := hhistory.change (step_change state op)
      have hrest := ih hnext
      have hfilter : ∀ (f : ControlOutcome → Option ControlLease) outcome outcomes,
          (outcome :: outcomes).filterMap f =
            (f outcome).toList ++ outcomes.filterMap f := by
        intro f outcome outcomes
        cases hf : f outcome <;> simp [hf]
      simpa [ControlState.run, grantedLeases, revokedLeases, hfilter,
        List.append_assoc] using hrest

/-! ## The current lease while nobody gives it up -/

/-- The outcome neither renews the lease nor reports it as given up. -/
def Keeps (lease : ControlLease) (outcome : ControlOutcome) : Prop :=
  (∀ other, outcome.revoked = some other →
      ¬ (other.id = lease.id ∧ other.fence = lease.fence)) ∧
    ∀ other, outcome.renewedLease = some other →
      ¬ (other.id = lease.id ∧ other.fence = lease.fence)

theorem Change.keeps_current {state next : ControlState}
    {newlyGranted newlyRevoked renewed} {active : ActiveLease}
    (hchange : Change state next newlyGranted newlyRevoked renewed)
    (hactive : state.current = some active)
    (hrevoked : ∀ other, newlyRevoked = some other →
      ¬ (other.id = active.lease.id ∧ other.fence = active.lease.fence))
    (hrenewed : ∀ other, renewed = some other →
      ¬ (other.id = active.lease.id ∧ other.fence = active.lease.fence)) :
    next = state := by
  cases hchange with
  | unchanged => rfl
  | granted actor ttlMs wall now freshId hidle => simp [hactive] at hidle
  | replaced actor ttlMs wall now freshId other hother =>
      obtain rfl := Option.some.inj (hactive.symm.trans hother)
      exact (hrevoked _ rfl ⟨rfl, rfl⟩).elim
  | renewed other expires deadline hother =>
      obtain rfl := Option.some.inj (hactive.symm.trans hother)
      exact (hrenewed _ rfl ⟨rfl, rfl⟩).elim
  | dropped other generation hother =>
      obtain rfl := Option.some.inj (hactive.symm.trans hother)
      exact (hrevoked _ rfl ⟨rfl, rfl⟩).elim
  | regenerated generation hidle => simp [hactive] at hidle

theorem run_keeps_current {state : ControlState} {active : ActiveLease}
    (hactive : state.current = some active) (ops : List ControlOp)
    (hkeeps : ∀ outcome ∈ (state.run ops).2, Keeps active.lease outcome) :
    (state.run ops).1 = state := by
  induction ops with
  | nil => rfl
  | cons op ops ih =>
      simp only [run, List.mem_cons, forall_eq_or_imp] at hkeeps ⊢
      have hstep := (step_change state op).keeps_current hactive
        hkeeps.1.1 hkeeps.1.2
      rw [hstep] at hkeeps ⊢
      exact ih hkeeps.2

/-- A newly granted lease is current, of the epoch and generation of its state. -/
theorem Change.granted_current {state next : ControlState}
    {newlyGranted newlyRevoked renewed} {lease : ControlLease}
    (hchange : Change state next newlyGranted newlyRevoked renewed)
    (hgranted : newlyGranted = some lease) :
    ∃ deadline, next.current = some ⟨lease, deadline⟩ ∧
      lease.epoch = next.daemonEpoch ∧ lease.generation = next.generation := by
  cases hchange with
  | granted actor ttlMs wall now freshId hidle =>
      obtain rfl := Option.some.inj hgranted
      exact ⟨_, rfl, rfl, rfl⟩
  | replaced actor ttlMs wall now freshId other hother =>
      obtain rfl := Option.some.inj hgranted
      exact ⟨_, rfl, rfl, rfl⟩
  | unchanged => cases hgranted
  | renewed other expires deadline hother => cases hgranted
  | dropped other generation hother => cases hgranted
  | regenerated generation hidle => cases hgranted

end ControlState

/-! ## The wall clock -/

/-- Forget the informational timestamps of a lease. -/
def ControlLease.eraseWall (lease : ControlLease) : ControlLease :=
  { lease with issuedWallTimeNs := 0, expiresWallTimeNs := 0 }

def ActiveLease.eraseWall (active : ActiveLease) : ActiveLease :=
  { active with lease := active.lease.eraseWall }

/-- The same call with the wall clock at zero. -/
def ControlOp.eraseWall : ControlOp → ControlOp
  | .acquire actor mode ttlMs _ now freshId => .acquire actor mode ttlMs 0 now freshId
  | .grantIfIdle actor ttlMs _ now freshId => .grantIfIdle actor ttlMs 0 now freshId
  | .transferExact ownerId controlId fence actor ttlMs _ now freshId =>
      .transferExact ownerId controlId fence actor ttlMs 0 now freshId
  | .renew actorId controlId fence ttlMs _ now =>
      .renew actorId controlId fence ttlMs 0 now
  | .release actorId controlId fence _ now => .release actorId controlId fence 0 now
  | .expire _ now => .expire 0 now
  | .disconnect actorId _ now => .disconnect actorId 0 now
  | .changeGeneration generation _ now => .changeGeneration generation 0 now

namespace ControlState

def eraseWall (state : ControlState) : ControlState :=
  { state with current := state.current.map ActiveLease.eraseWall }

@[simp] theorem eraseWall_eraseWall (state : ControlState) :
    state.eraseWall.eraseWall = state.eraseWall := by
  cases hcurrent : state.current <;>
    simp [eraseWall, hcurrent, ActiveLease.eraseWall, ControlLease.eraseWall]

theorem validate_eraseWall (state : ControlState) (actorId : String)
    (controlId : Uuid) (fence now : ℕ) :
    state.eraseWall.validate actorId controlId fence now =
      (state.validate actorId controlId fence now).map ControlLease.eraseWall := by
  cases hcurrent : state.current with
  | none => simp [validate, eraseWall, hcurrent, Except.map]
  | some active =>
      simp only [validate, eraseWall, hcurrent, Option.map_some,
        ActiveLease.eraseWall, ControlLease.eraseWall]
      split_ifs <;> rfl

theorem passes_eraseWall_iff (state : ControlState) (actorId : String)
    (controlId : Uuid) (fence now : ℕ) :
    state.eraseWall.Passes actorId controlId fence now ↔
      state.Passes actorId controlId fence now := by
  unfold Passes
  rw [validate_eraseWall]
  cases state.validate actorId controlId fence now <;> simp [Except.map]

theorem step_eraseWall (state : ControlState) (op : ControlOp) :
    (state.eraseWall.step op.eraseWall).1.eraseWall = (state.step op).1.eraseWall := by
  cases op with
  | acquire actor mode ttlMs wall now freshId =>
      cases hcurrent : state.current with
      | none => simp [step, acquire, grant, eraseWall, ControlOp.eraseWall, hcurrent,
          ActiveLease.eraseWall, ControlLease.eraseWall, monotonicExpiry, clampTtl]
      | some active =>
          simp only [step, acquire, ControlOp.eraseWall, eraseWall, hcurrent,
            Option.map_some, ActiveLease.eraseWall, ControlLease.eraseWall]
          split_ifs <;> simp [grant, hcurrent, ActiveLease.eraseWall,
            ControlLease.eraseWall, monotonicExpiry, clampTtl]
  | grantIfIdle actor ttlMs wall now freshId =>
      cases hcurrent : state.current <;>
        simp [step, grantIfIdle, grant, eraseWall, ControlOp.eraseWall, hcurrent,
          ActiveLease.eraseWall, ControlLease.eraseWall, monotonicExpiry, clampTtl]
  | transferExact ownerId controlId fence actor ttlMs wall now freshId =>
      simp only [step, transferExact, ControlOp.eraseWall, validate_eraseWall]
      cases state.validate ownerId controlId fence now with
      | error error => exact state.eraseWall_eraseWall
      | ok lease => simp [Except.map, grant, eraseWall, ActiveLease.eraseWall,
          ControlLease.eraseWall, monotonicExpiry, clampTtl, Function.comp_def]
  | renew actorId controlId fence ttlMs wall now =>
      simp only [step, renew, ControlOp.eraseWall, validate_eraseWall]
      cases state.validate actorId controlId fence now with
      | error error => exact state.eraseWall_eraseWall
      | ok lease => simp [Except.map, eraseWall, ActiveLease.eraseWall,
          ControlLease.eraseWall, monotonicExpiry, clampTtl, Function.comp_def]
  | release actorId controlId fence wall now =>
      simp only [step, release, ControlOp.eraseWall, validate_eraseWall]
      cases state.validate actorId controlId fence now with
      | error error => exact state.eraseWall_eraseWall
      | ok lease => simp [Except.map, eraseWall, ActiveLease.eraseWall,
          ControlLease.eraseWall, Function.comp_def]
  | expire wall now =>
      cases hcurrent : state.current with
      | none => simp [step, expire, eraseWall, ControlOp.eraseWall, hcurrent]
      | some active =>
          simp only [step, expire, ControlOp.eraseWall, eraseWall, hcurrent,
            Option.map_some, ActiveLease.eraseWall, ControlLease.eraseWall]
          split_ifs <;> simp [hcurrent, ActiveLease.eraseWall, ControlLease.eraseWall]
  | disconnect actorId wall now =>
      cases hcurrent : state.current with
      | none => simp [step, disconnect, eraseWall, ControlOp.eraseWall, hcurrent]
      | some active =>
          simp only [step, disconnect, ControlOp.eraseWall, eraseWall, hcurrent,
            Option.map_some, ActiveLease.eraseWall, ControlLease.eraseWall]
          split_ifs <;> simp [hcurrent, ActiveLease.eraseWall, ControlLease.eraseWall]
  | changeGeneration generation wall now =>
      cases hcurrent : state.current <;>
        simp [step, changeGeneration, eraseWall, ControlOp.eraseWall, hcurrent]

theorem run_eraseWall_congr {left right : ControlState} {ops other : List ControlOp}
    (hstates : left.eraseWall = right.eraseWall)
    (hops : ops.map ControlOp.eraseWall = other.map ControlOp.eraseWall) :
    (left.run ops).1.eraseWall = (right.run other).1.eraseWall := by
  induction ops generalizing left right other with
  | nil =>
      obtain rfl : other = [] := by simpa using hops.symm
      exact hstates
  | cons op ops ih =>
      cases other with
      | nil => simp at hops
      | cons op' other =>
          simp only [List.map_cons, List.cons.injEq] at hops
          have hstep : (left.step op).1.eraseWall = (right.step op').1.eraseWall := by
            rw [← step_eraseWall left, ← step_eraseWall right, hstates, hops.1]
          have hrest := ih hstep hops.2
          exact hrest

/-! ## The safety of fencing tokens -/

/-- What fencing promises about one run from a fresh control state.  The two
clauses which compare fences hold while the fence counter is below its cap. -/
structure FencingSafe (first : ControlState) (ops : List ControlOp) : Prop where
  fences_increase : (grantedLeases (first.run ops).2).length ≤ u64Max →
    (grantedLeases (first.run ops).2).Pairwise fun earlier later =>
      earlier.fence < later.fence
  unique_token : ∀ now actorId controlId fence actorId' controlId' fence',
    (first.run ops).1.Passes actorId controlId fence now →
    (first.run ops).1.Passes actorId' controlId' fence' now →
      actorId = actorId' ∧ controlId = controlId' ∧ fence = fence'
  passes_last_granted : ∀ now actorId controlId fence,
    (first.run ops).1.Passes actorId controlId fence now →
    ∃ last, (grantedLeases (first.run ops).2).getLast? = some last ∧
      last.owner.id = actorId ∧ last.id = controlId ∧ last.fence = fence ∧
      last.epoch = (first.run ops).1.daemonEpoch ∧
      last.generation = (first.run ops).1.generation ∧
      ∃ active, (first.run ops).1.current = some active ∧ now < active.deadline
  passes_never_revoked : (grantedLeases (first.run ops).2).length ≤ u64Max →
    ∀ now actorId controlId fence,
      (first.run ops).1.Passes actorId controlId fence now →
      ∀ lease ∈ revokedLeases (first.run ops).2, lease.fence ≠ fence
  wall_irrelevant : ∀ other, other.map ControlOp.eraseWall = ops.map ControlOp.eraseWall →
    ∀ now actorId controlId fence,
      (first.run other).1.Passes actorId controlId fence now ↔
        (first.run ops).1.Passes actorId controlId fence now
  error_unchanged : ∀ op, ((first.run ops).1.step op).2.isError →
    ((first.run ops).1.step op).1 = (first.run ops).1
  granted_persists : ∀ op lease, ((first.run ops).1.step op).2.granted = some lease →
    ∃ deadline,
      ((first.run ops).1.step op).1.current = some ⟨lease, deadline⟩ ∧
      ∀ later,
        (∀ outcome ∈ (((first.run ops).1.step op).1.run later).2, Keeps lease outcome) →
        ∀ now < deadline, (((first.run ops).1.step op).1.run later).1.Passes
          lease.owner.id lease.id lease.fence now

theorem fencingSafe_run (daemonEpoch : Uuid) (generation : ℕ) (limits : ControlLimits)
    (instantMax : ℕ) (ops : List ControlOp) :
    FencingSafe (new daemonEpoch generation limits instantMax) ops := by
  have hhistory := (history_new daemonEpoch generation limits instantMax).run ops
  simp only [List.nil_append] at hhistory
  constructor
  · intro hfew
    have hsorted : (List.range' 1 (grantedLeases
        ((new daemonEpoch generation limits instantMax).run ops).2).length).Pairwise (· < ·) :=
      List.pairwise_lt_range'
    rw [← hhistory.fences hfew] at hsorted
    exact List.pairwise_map.mp hsorted
  · rintro now actorId controlId fence actorId' controlId' fence' ⟨lease, hleft⟩
      ⟨lease', hright⟩
    obtain ⟨active, hactive, rfl, hid, hfence, -, -, howner, -⟩ :=
      validate_eq_ok_iff.mp hleft
    obtain ⟨active', hactive', rfl, hid', hfence', -, -, howner', -⟩ :=
      validate_eq_ok_iff.mp hright
    obtain rfl := Option.some.inj (hactive.symm.trans hactive')
    exact ⟨howner.symm.trans howner', hid.symm.trans hid', hfence.symm.trans hfence'⟩
  · rintro now actorId controlId fence ⟨lease, hvalid⟩
    obtain ⟨active, hactive, rfl, hid, hfence, -, -, howner, hlive⟩ :=
      validate_eq_ok_iff.mp hvalid
    obtain ⟨earlier, last, hsplit, ⟨htokenOwner, htokenId, htokenFence⟩, -, -, hepoch,
      hgeneration⟩ := hhistory.holder active hactive
    refine ⟨last, by simp [hsplit], ?_, ?_, ?_, hepoch, hgeneration, active, hactive, hlive⟩
    · rw [← htokenOwner, howner]
    · rw [← htokenId, hid]
    · rw [← htokenFence, hfence]
  · rintro hfew now actorId controlId fence ⟨lease, hvalid⟩ revoked hrevoked
    obtain ⟨active, hactive, rfl, -, hfence, -⟩ := validate_eq_ok_iff.mp hvalid
    have hlt := (hhistory.retired hfew revoked hrevoked).2 active hactive
    omega
  · intro other hops now actorId controlId fence
    rw [← passes_eraseWall_iff, run_eraseWall_congr rfl hops, passes_eraseWall_iff]
  · intro op herror
    exact step_eq_self_of_isError herror
  · intro op lease hgranted
    obtain ⟨deadline, hcurrent, hepoch, hgeneration⟩ :=
      (step_change _ op).granted_current hgranted
    refine ⟨deadline, hcurrent, ?_⟩
    intro later hkeeps now hlive
    rw [run_keeps_current hcurrent later hkeeps]
    exact ⟨lease, validate_eq_ok_iff.mpr
      ⟨_, hcurrent, rfl, rfl, rfl, hepoch, hgeneration, rfl, hlive⟩⟩

/-! ## The fence counter at its cap -/

/-- One grant and the disconnect which gives it up. -/
def grantAndDisconnect (actor : Actor) : List ControlOp :=
  [.grantIfIdle actor minTtlMs 0 0 0, .disconnect actor.id 0 0]

theorem run_grantAndDisconnect (actor : Actor) (rounds : ℕ) {state : ControlState}
    (hidle : state.current = none) :
    (grantedLeases
      (state.run (List.replicate rounds (grantAndDisconnect actor)).flatten).2).length =
        rounds := by
  induction rounds generalizing state with
  | zero => simp [run, grantedLeases]
  | succ rounds ih =>
      rw [List.replicate_succ, List.flatten_cons, run_append]
      have hround : (state.run (grantAndDisconnect actor)).1.current = none ∧
          (grantedLeases (state.run (grantAndDisconnect actor)).2).length = 1 := by
        simp [grantAndDisconnect, run, step, grantIfIdle, grant, disconnect, hidle,
          grantedLeases, ControlOutcome.granted]
      have hrest := ih hround.1
      simp only [grantedLeases, List.filterMap_append, List.length_append] at hrest ⊢
      have hone := hround.2
      simp only [grantedLeases] at hone
      omega

/-- A strictly increasing list of positive naturals is no longer than its bound. -/
theorem length_le_of_pairwise_lt {fences : List ℕ} {bound : ℕ}
    (hsorted : fences.Pairwise (· < ·)) (hpos : ∀ fence ∈ fences, 1 ≤ fence)
    (hbound : ∀ fence ∈ fences, fence ≤ bound) : fences.length ≤ bound := by
  have hsubset : fences.toFinset ⊆ Finset.Icc 1 bound := by
    intro fence hfence
    have hmem := List.mem_toFinset.mp hfence
    exact Finset.mem_Icc.mpr ⟨hpos fence hmem, hbound fence hmem⟩
  have hcard := Finset.card_le_card hsubset
  rwa [List.toFinset_card_of_nodup (hsorted.imp (fun h => h.ne)), Nat.card_Icc,
    Nat.add_sub_cancel] at hcard

theorem run_fence_mem_bounds (ops : List ControlOp) {state : ControlState}
    (hpos : 1 ≤ state.nextFence) (hcap : state.nextFence ≤ u64Max) :
    ∀ lease ∈ grantedLeases (state.run ops).2, 1 ≤ lease.fence ∧ lease.fence ≤ u64Max := by
  induction ops generalizing state with
  | nil => simp [run, grantedLeases]
  | cons op ops ih =>
      intro lease hlease
      have hchange := step_change state op
      have hnext : 1 ≤ (state.step op).1.nextFence ∧
          (state.step op).1.nextFence ≤ u64Max ∧
          ∀ granted, (state.step op).2.granted = some granted →
            granted.fence = state.nextFence := by
        have hgrow : 1 ≤ satAdd u64Max state.nextFence 1 ∧
            satAdd u64Max state.nextFence 1 ≤ u64Max :=
          ⟨hpos.trans (le_satAdd 1 hcap), satAdd_le_cap _ _ _⟩
        generalize (state.step op).1 = next at hchange ⊢
        generalize (state.step op).2.granted = newlyGranted at hchange ⊢
        generalize (state.step op).2.revoked = newlyRevoked at hchange
        generalize (state.step op).2.renewedLease = renewed at hchange
        cases hchange with
        | unchanged => exact ⟨hpos, hcap, by simp⟩
        | granted actor ttlMs wall now freshId hidle =>
            exact ⟨hgrow.1, hgrow.2, by rintro _ ⟨⟩; rfl⟩
        | replaced actor ttlMs wall now freshId active hactive =>
            exact ⟨hgrow.1, hgrow.2, by rintro _ ⟨⟩; rfl⟩
        | renewed active expires deadline hactive => exact ⟨hpos, hcap, by simp⟩
        | dropped active generation hactive => exact ⟨hpos, hcap, by simp⟩
        | regenerated generation hidle => exact ⟨hpos, hcap, by simp⟩
      simp only [run, grantedLeases, List.filterMap_cons] at hlease
      cases hgranted : (state.step op).2.granted with
      | none =>
          simp only [hgranted] at hlease
          exact ih hnext.1 hnext.2.1 lease hlease
      | some granted =>
          simp only [hgranted, List.mem_cons] at hlease
          rcases hlease with rfl | hlater
          · rw [hnext.2.2 lease hgranted]
            exact ⟨hpos, hcap⟩
          · exact ih hnext.1 hnext.2.1 lease hlater

/-- The fence is a saturating `u64`: the grant after `2 ^ 64 - 1` others repeats
the last fence, so fences do not increase over every run. -/
theorem fences_repeat_at_cap :
    ¬ ∀ ops : List ControlOp,
      (grantedLeases ((new 1 0 {} 0).run ops).2).Pairwise fun earlier later =>
        earlier.fence < later.fence := by
  intro hincrease
  let actor : Actor := { id := "human:1", label := "console", kind := .human }
  let ops := (List.replicate (u64Max + 1) (grantAndDisconnect actor)).flatten
  have hlength := @run_grantAndDisconnect actor (u64Max + 1) (new 1 0 {} 0) rfl
  have hbounds := @run_fence_mem_bounds ops (new 1 0 {} 0) (by decide) (by decide)
  have hsorted := List.pairwise_map.mpr (hincrease ops)
  have hpos : ∀ fence ∈ (grantedLeases ((new 1 0 {} 0).run ops).2).map ControlLease.fence,
      0 < fence := by
    intro fence hfence
    obtain ⟨lease, hlease, rfl⟩ := List.mem_map.mp hfence
    exact (hbounds lease hlease).1
  have hcap : ∀ fence ∈ (grantedLeases ((new 1 0 {} 0).run ops).2).map ControlLease.fence,
      fence ≤ u64Max := by
    intro fence hfence
    obtain ⟨lease, hlease, rfl⟩ := List.mem_map.mp hfence
    exact (hbounds lease hlease).2
  have hle := length_le_of_pairwise_lt hsorted hpos hcap
  rw [List.length_map, hlength] at hle
  omega

end ControlState
end SerialPlatform
