import SerialPlatform.DesktopEffects

/-!
# A ready desktop client and its live forwarders

The daemon answers an Attach once every port has its forwarder.  A forwarder which does not
lag ends with its connection only, and then the client's socket closes.
-/

namespace SerialPlatform.Desktop

namespace Connection

variable {connection next : Connection}

def Runs (connection : Connection) (port : String) : Prop :=
  ∃ subscription ∈ connection.subscriptions,
    subscription.port = port ∧ subscription.state = .running

/-- The client sends one Attach at most. -/
def SingleAttach (connection : Connection) : Prop :=
  ∀ {i j : ℕ} {requestId ports requestId' ports'},
    connection.sent[i]? = some (.attach requestId ports) →
    connection.sent[j]? = some (.attach requestId' ports') → i = j

/-- An Attach has been dispatched and each of its ports has a running forwarder, or the
connection is gone. -/
def Attached (connection : Connection) : Prop :=
  connection.returned = true ∨
    connection.attaching = none ∧ ∃ i requestId ports, i < connection.read ∧
      connection.sent[i]? = some (.attach requestId ports) ∧ ∀ port ∈ ports, connection.Runs port

structure Attends (connection : Connection) : Prop where
  attaching : ∀ attaching, connection.attaching = some attaching →
    (∃ i < connection.read, connection.sent[i]? =
      some (.attach attaching.requestId (attaching.attached ++ attaching.requested))) ∧
    ∀ port ∈ attaching.attached, port ∉ attaching.requested → connection.Runs port
  answered : ∀ requestId ports,
    .result requestId (.attached (some ports)) ∈ connection.sending ++ connection.outbound →
      connection.Attached ∧ ∃ requested, .attach requestId requested ∈ connection.sent
  bounded : ∀ subscription ∈ connection.subscriptions, subscription.state ≠ .ended →
    subscription.unread ≤ broadcastQueue

theorem attends_new : Connection.new.Attends := by
  constructor <;> simp [Connection.new]

theorem attached_of_same (h : connection.Attached) (hreturned : next.returned = connection.returned)
    (hattaching : next.attaching = connection.attaching) (hread : connection.read ≤ next.read)
    (hsent : ∀ {i : ℕ} {message : ClientMessage}, connection.sent[i]? = some message → next.sent[i]? = some message)
    (hruns : ∀ port, connection.Runs port → next.Runs port) : next.Attached := by
  cases h with
  | inl hgone => exact Or.inl (hreturned.trans hgone)
  | inr hdone =>
      obtain ⟨hnone, i, requestId, ports, hlt, hmessage, hall⟩ := hdone
      exact Or.inr ⟨hattaching.trans hnone, i, requestId, ports, lt_of_lt_of_le hlt hread,
        hsent hmessage, fun port hport => hruns port (hall port hport)⟩

theorem Attends.finish (h : connection.Attends) : connection.finish.Attends where
  attaching := by
    intro attaching hsome
    simp [Connection.finish] at hsome
  answered := by
    intro requestId ports hresult
    have hold : .result requestId (.attached (some ports)) ∈
        connection.sending ++ connection.outbound := by
      have hout : ServerFrame.result requestId (.attached (some ports)) ∈ connection.outbound := by
        simpa [Connection.finish] using hresult
      exact List.mem_append_right _ hout
    exact ⟨Or.inl rfl, (h.answered requestId ports hold).2⟩
  bounded := by
    intro subscription hsubscription
    simp [Connection.finish] at hsubscription

theorem attachFrames_result {port : String} {daemonEpoch : Uuid} {gap : Bool} {events : List Bool}
    {requestId : RequestId} {reply : Reply} :
    .result requestId reply ∉ attachFrames port daemonEpoch gap events := by
  have hevents : ∀ data : Bool, eventFrame port daemonEpoch data ≠ .result requestId reply := by
    intro data
    cases data <;> simp [eventFrame]
  intro hmem
  simp only [attachFrames, List.append_assoc, List.mem_append, List.mem_singleton,
    List.mem_map] at hmem
  obtain h | h | h | ⟨data, _, h⟩ | h := hmem
  · simp at h
  · split at h <;> simp at h
  · split at h <;> simp at h
  · exact hevents data h
  · simp at h

theorem Attends.attach (h : connection.Attends) {daemonEpoch : Uuid} {attaching : Attaching}
    {answer : Answer} (hlive : connection.returned = false) (hsending : connection.sending = [])
    (hattaching : connection.attaching = some attaching)
    (hnext : connection.attach daemonEpoch attaching answer = some next) : next.Attends := by
  obtain ⟨⟨i, hread, hmessage⟩, hruns⟩ := h.attaching attaching hattaching
  -- While an Attach is dispatched none has been answered.
  have hunanswered : ∀ requestId ports,
      .result requestId (.attached (some ports)) ∉ connection.outbound := by
    intro requestId ports hresult
    cases (h.answered requestId ports (List.mem_append_right _ hresult)).1 with
    | inl hgone => simp [hlive] at hgone
    | inr hdone => simp [hattaching] at hdone
  unfold Connection.attach at hnext
  split at hnext
  · rename_i hrequested
    cases hnext
    rw [hrequested, List.append_nil] at hmessage
    constructor
    · intro other hother
      simp at hother
    · intro requestId ports hresult
      have hnew : requestId = attaching.requestId ∧ ports = attaching.attached := by
        have hmem := List.mem_append.mp hresult
        simpa [hunanswered] using hmem
      refine ⟨Or.inr ⟨rfl, i, attaching.requestId, attaching.attached, hread, hmessage, ?_⟩, ?_⟩
      · intro port hport
        exact hruns port hport (by simp [hrequested])
      · rw [hnew.1]
        exact ⟨attaching.attached, List.mem_of_getElem? hmessage⟩
    · exact h.bounded
  · rename_i port ports hrequested
    rw [hrequested] at hmessage hruns
    split at hnext
    · rename_i hsubscribed
      cases hnext
      have hspawned : ∀ other, connection.Runs other → (connection.spawn port).Runs other := by
        intro other hother
        obtain ⟨subscription, hmem, hport, hstate⟩ := hother
        refine ⟨_, List.mem_map_of_mem hmem, ?_⟩
        rw [if_neg (fun hboth => by simp [hstate] at hboth)]
        exact ⟨hport, hstate⟩
      have hport : (connection.spawn port).Runs port := by
        obtain ⟨subscription, hmem, hown⟩ := List.any_eq_true.mp hsubscribed
        have hboth : subscription.port = port ∧ subscription.state = .subscribed :=
          of_decide_eq_true hown
        refine ⟨_, List.mem_map_of_mem hmem, ?_⟩
        rw [if_pos hboth]
        exact ⟨hboth.1, rfl⟩
      constructor
      · intro other hother
        have hsame : other = ⟨attaching.requestId, attaching.attached ++ [port], ports⟩ :=
          (Option.some.inj hother).symm
        subst hsame
        constructor
        · refine ⟨i, hread, ?_⟩
          rw [List.append_assoc]
          exact hmessage
        · intro own hown hrest
          cases List.mem_append.mp hown with
          | inr hlast =>
              rw [List.mem_singleton.mp hlast]
              exact hport
          | inl hbefore =>
              by_cases hsame : own = port
              · rw [hsame]
                exact hport
              · exact hspawned own (hruns own hbefore (by simp [hsame, hrest]))
      · intro requestId ports' hresult
        have hnone : ServerFrame.result requestId (.attached (some ports')) ∈
            connection.sending ++ connection.outbound := hresult
        rw [hsending, List.nil_append] at hnone
        exact absurd hnone (hunanswered requestId ports')
      · intro subscription hsubscription hstate
        obtain ⟨old, hold, rfl⟩ := List.mem_map.mp hsubscription
        by_cases hown : old.port = port ∧ old.state = .subscribed
        · rw [if_pos hown]
          exact h.bounded old hold (by simp [hown.2])
        · rw [if_neg hown] at hstate ⊢
          exact h.bounded old hold hstate
    · split at hnext
      · rename_i gap events
        cases hnext
        constructor
        · intro other hother
          have hsame : other = attaching := by
            have hother' : connection.attaching = some other := hother
            rw [hattaching] at hother'
            exact (Option.some.inj hother').symm
          subst hsame
          rw [hrequested]
          refine ⟨⟨i, hread, hmessage⟩, ?_⟩
          intro own hown hrest
          obtain ⟨subscription, hmem, hport, hstate⟩ := hruns own hown hrest
          refine ⟨subscription, List.mem_append_left _ ?_, hport, hstate⟩
          have hne : own ≠ port := fun hsame => hrest (by simp [hsame])
          simpa [hport, hne] using hmem
        · intro requestId ports' hresult
          cases List.mem_append.mp hresult with
          | inl hnew => exact absurd hnew attachFrames_result
          | inr hold => exact absurd hold (hunanswered requestId ports')
        · intro subscription hsubscription hstate
          cases List.mem_append.mp hsubscription with
          | inl hold => exact h.bounded subscription (List.mem_filter.mp hold).1 hstate
          | inr hnew =>
              rw [List.mem_singleton.mp hnew]
              exact Nat.zero_le _
      · rename_i found code
        cases hnext
        constructor
        · intro other hother
          simp at hother
        · intro requestId ports' hresult
          cases List.mem_append.mp hresult with
          | inl hnew => simp at hnew
          | inr hold => exact absurd hold (hunanswered requestId ports')
        · intro subscription hsubscription
          apply h.bounded subscription
          dsimp only at hsubscription
          split at hsubscription
          · exact (List.mem_filter.mp hsubscription).1
          · exact hsubscription
      · simp at hnext

/-- Once an Attach has been dispatched no other is read. -/
theorem Attached.not_next (h : connection.Attached) (hsingle : connection.SingleAttach)
    (hlive : connection.returned = false) {requestId : RequestId} {ports : List String} :
    connection.sent[connection.read]? ≠ some (.attach requestId ports) := by
  intro hnext
  cases h with
  | inl hgone => simp [hlive] at hgone
  | inr hdone =>
      obtain ⟨_, i, requestId', ports', hlt, hmessage, _⟩ := hdone
      exact absurd (hsingle hmessage hnext) (Nat.ne_of_lt hlt)

/-- A message which is no Attach is answered with frames which do not confirm one. -/
theorem Attends.reply (h : connection.Attends) (hattaching : connection.attaching = none)
    {frames : List ServerFrame} {greeted : Bool}
    (hframes : ∀ requestId ports, .result requestId (.attached (some ports)) ∉ frames) :
    { connection with read := connection.read + 1, greeted := greeted, sending := frames }.Attends
    where
  attaching := by
    intro attaching hsome
    simp [hattaching] at hsome
  answered := by
    intro requestId ports hresult
    cases List.mem_append.mp hresult with
    | inl hnew => exact absurd hnew (hframes requestId ports)
    | inr hold =>
        obtain ⟨hattached, hsent⟩ :=
          h.answered requestId ports (List.mem_append_right _ hold)
        exact ⟨attached_of_same hattached rfl rfl (Nat.le_succ _) (fun hmessage => hmessage)
          (fun _ hruns => hruns), hsent⟩
  bounded := h.bounded

theorem Attends.receive (h : connection.Attends) (hsingle : connection.SingleAttach)
    {serverId daemonEpoch : Uuid} {message : ClientMessage} {answer : Answer}
    (hlive : connection.returned = false) (hattaching : connection.attaching = none)
    (hsending : connection.sending = [])
    (hmessage : connection.sent[connection.read]? = some message)
    (hnext : connection.receive serverId daemonEpoch message answer = some next) :
    next.Attends := by
  have hreply := fun greeted frames hframes =>
    @Attends.reply connection h hattaching frames greeted hframes
  have hrefused : ∀ (requestId : RequestId) (code : Option String),
      { connection with
        read := connection.read + 1
        outbound := connection.outbound ++
          [ServerFrame.error (some requestId) code] }.finish.Attends := by
    intro requestId code
    apply Attends.finish
    constructor
    · intro attaching hsome
      simp [hattaching] at hsome
    · intro own ports hresult
      have hold : ServerFrame.result own (.attached (some ports)) ∈ connection.outbound := by
        simpa [hsending] using hresult
      obtain ⟨hattached, hsent⟩ := h.answered own ports (List.mem_append_right _ hold)
      exact ⟨attached_of_same hattached rfl rfl (Nat.le_succ _) (fun hmessage => hmessage)
        (fun _ hruns => hruns), hsent⟩
    · exact h.bounded
  unfold Connection.receive at hnext
  dsimp only at hnext
  split at hnext
  · rename_i hgreeted
    split at hnext
    · cases hnext
      exact hreply _ _ (by simp)
    · rename_i requestId ports
      cases hnext
      constructor
      · intro attaching hsome
        have hsame : attaching = ⟨requestId, [], ports⟩ := (Option.some.inj hsome).symm
        subst hsame
        exact ⟨⟨connection.read, Nat.lt_succ_self _, hmessage⟩, by simp⟩
      · intro own ports' hresult
        have hold : ServerFrame.result own (.attached (some ports')) ∈
            connection.sending ++ connection.outbound := hresult
        exact absurd hmessage ((h.answered own ports' hold).1.not_next hsingle hlive)
      · exact h.bounded
    · cases hnext
      exact hreply _ _ (by simp)
    · cases hnext
      exact hreply _ _ (by simp)
    · simp at hnext
  · split at hnext
    · cases hnext
      exact hreply _ _ (by simp)
    · cases hnext
      exact hrefused _ _
    · cases hnext
      exact hrefused _ _
    · cases hnext
      exact hrefused _ _
    · simp at hnext

theorem Attends.serve (h : connection.Attends) (hsingle : connection.SingleAttach)
    {serverId daemonEpoch : Uuid} {answer : Answer}
    (hnext : connection.serve serverId daemonEpoch answer = some next) : next.Attends := by
  unfold Connection.serve at hnext
  split at hnext
  · simp at hnext
  · rename_i hlive
    rw [Bool.not_eq_true] at hlive
    split at hnext
    · rename_i frame frames hsending
      cases hnext
      refine ⟨h.attaching, ?_, h.bounded⟩
      intro requestId ports hresult
      have hold : .result requestId (.attached (some ports)) ∈
          connection.sending ++ connection.outbound := by
        rw [hsending]
        have hmem : ServerFrame.result requestId (.attached (some ports)) ∈
            frames ++ (connection.outbound ++ [frame]) := hresult
        simp only [List.mem_append, List.mem_singleton] at hmem
        simp only [List.cons_append, List.mem_cons, List.mem_append]
        tauto
      exact h.answered requestId ports hold
    · rename_i hsending
      split at hnext
      · rename_i attaching hattaching
        exact h.attach hlive hsending hattaching hnext
      · rename_i hattaching
        obtain ⟨message, hmessage, hreceived⟩ := Option.bind_eq_some_iff.mp hnext
        exact h.receive hsingle hlive hattaching hsending hmessage hreceived

/-- What was attached stays attached while the task goes on. -/
theorem Attached.serve (h : connection.Attached) (hsingle : connection.SingleAttach)
    {serverId daemonEpoch : Uuid} {answer : Answer}
    (hnext : connection.serve serverId daemonEpoch answer = some next) : next.Attached := by
  unfold Connection.serve at hnext
  split at hnext
  · simp at hnext
  · rename_i hlive
    rw [Bool.not_eq_true] at hlive
    have hnotNext := fun requestId ports => @Attached.not_next connection h hsingle hlive requestId ports
    have hnone : connection.attaching = none := by
      cases h with
      | inl hgone => simp [hlive] at hgone
      | inr hdone => exact hdone.1
    have hsame : ∀ frames outbound greeted read, connection.read ≤ read →
        { connection with
          sending := frames, outbound := outbound, greeted := greeted, read := read }.Attached :=
      fun _ _ _ _ hread => attached_of_same h rfl rfl hread (fun hmessage => hmessage)
        (fun _ hruns => hruns)
    split at hnext
    · cases hnext
      exact hsame _ _ _ _ le_rfl
    · rw [hnone] at hnext
      obtain ⟨message, hmessage, hreceived⟩ := Option.bind_eq_some_iff.mp hnext
      unfold Connection.receive at hreceived
      dsimp only at hreceived
      split at hreceived
      · split at hreceived
        · cases hreceived
          exact hsame _ _ _ _ (Nat.le_succ _)
        · exact absurd hmessage (hnotNext _ _)
        · cases hreceived
          exact hsame _ _ _ _ (Nat.le_succ _)
        · cases hreceived
          exact hsame _ _ _ _ (Nat.le_succ _)
        · simp at hreceived
      · split at hreceived
        · cases hreceived
          exact hsame _ _ _ _ (Nat.le_succ _)
        · cases hreceived
          exact Or.inl rfl
        · cases hreceived
          exact Or.inl rfl
        · cases hreceived
          exact Or.inl rfl
        · simp at hreceived

/-- The task leaves the messages of the client alone and returns with the stream's end. -/
theorem serve_kept {serverId daemonEpoch : Uuid} {answer : Answer}
    (hnext : connection.serve serverId daemonEpoch answer = some next) :
    next.sent = connection.sent ∧ (next.closing = true ∨
      next.closing = connection.closing ∧ next.returned = connection.returned) := by
  have hsame : ∀ {after : Connection}, after.sent = connection.sent →
      after.closing = connection.closing → after.returned = connection.returned →
      after.sent = connection.sent ∧ (after.closing = true ∨
        after.closing = connection.closing ∧ after.returned = connection.returned) :=
    fun hsent hclosing hreturned => ⟨hsent, Or.inr ⟨hclosing, hreturned⟩⟩
  unfold Connection.serve at hnext
  split at hnext
  · simp at hnext
  · split at hnext
    · cases hnext
      exact hsame rfl rfl rfl
    · split at hnext
      · unfold Connection.attach at hnext
        split at hnext
        · cases hnext
          exact hsame rfl rfl rfl
        · split at hnext
          · cases hnext
            exact hsame rfl rfl rfl
          · split at hnext
            · cases hnext
              exact hsame rfl rfl rfl
            · cases hnext
              exact hsame rfl rfl rfl
            · simp at hnext
      · obtain ⟨message, _, hreceived⟩ := Option.bind_eq_some_iff.mp hnext
        unfold Connection.receive at hreceived
        dsimp only at hreceived
        split at hreceived
        · split at hreceived
          · cases hreceived
            exact hsame rfl rfl rfl
          · cases hreceived
            exact hsame rfl rfl rfl
          · cases hreceived
            exact hsame rfl rfl rfl
          · cases hreceived
            exact hsame rfl rfl rfl
          · simp at hreceived
        · split at hreceived
          · cases hreceived
            exact hsame rfl rfl rfl
          · cases hreceived
            exact ⟨rfl, Or.inl rfl⟩
          · cases hreceived
            exact ⟨rfl, Or.inl rfl⟩
          · cases hreceived
            exact ⟨rfl, Or.inl rfl⟩
          · simp at hreceived

/-- The receivers of the port have room for another event. -/
def HasRoom (port : String) (connection : Connection) : Prop :=
  ∀ subscription ∈ connection.subscriptions, subscription.port = port →
    subscription.state ≠ .ended → subscription.unread < broadcastQueue

theorem runs_emit {port own : String} (h : connection.Runs own) :
    (connection.emit port).Runs own := by
  obtain ⟨subscription, hmem, hport, hstate⟩ := h
  refine ⟨_, List.mem_map_of_mem hmem, ?_⟩
  split
  · exact ⟨hport, hstate⟩
  · exact ⟨hport, hstate⟩

/-- The subscriptions change and the frames which are queued confirm no Attach. -/
theorem Attends.forwarded (h : connection.Attends) {subscriptions : List Subscription}
    {frames : List ServerFrame}
    (hruns : ∀ port, connection.Runs port →
      { connection with
        subscriptions := subscriptions
        outbound := connection.outbound ++ frames }.Runs port)
    (hframes : ∀ requestId ports, .result requestId (.attached (some ports)) ∉ frames)
    (hbounded : ∀ subscription ∈ subscriptions, subscription.state ≠ .ended →
      subscription.unread ≤ broadcastQueue) :
    { connection with
      subscriptions := subscriptions
      outbound := connection.outbound ++ frames }.Attends where
  attaching := by
    intro attaching hsome
    obtain ⟨hmessage, hall⟩ := h.attaching attaching hsome
    exact ⟨hmessage, fun port hport hrest => hruns port (hall port hport hrest)⟩
  answered := by
    intro requestId ports hresult
    have hold : .result requestId (.attached (some ports)) ∈
        connection.sending ++ connection.outbound := by
      simp only [List.mem_append] at hresult ⊢
      obtain hsending | houtbound | hnew := hresult
      · exact Or.inl hsending
      · exact Or.inr houtbound
      · exact absurd hnew (hframes requestId ports)
    obtain ⟨hattached, hsent⟩ := h.answered requestId ports hold
    exact ⟨attached_of_same hattached rfl rfl le_rfl (fun hmessage => hmessage) hruns, hsent⟩
  bounded := hbounded

theorem Attends.emit (h : connection.Attends) {port : String} (hroom : connection.HasRoom port) :
    (connection.emit port).Attends := by
  have hemitted := @Attends.forwarded connection h (connection.emit port).subscriptions []
    (fun own hruns => by
      obtain ⟨subscription, hmem, hown⟩ := @runs_emit connection port own hruns
      exact ⟨subscription, hmem, hown⟩)
    (by simp) (by
      intro subscription hsubscription hstate
      obtain ⟨old, hold, rfl⟩ := List.mem_map.mp hsubscription
      by_cases hown : old.port = port ∧ old.state ≠ .ended
      · rw [if_pos hown]
        exact hroom old hold hown.1 hown.2
      · rw [if_neg hown] at hstate ⊢
        exact h.bounded old hold hstate)
  rw [List.append_nil] at hemitted
  exact hemitted

theorem runs_setSubscription {changed : Subscription} {own : String}
    (hchanged : changed.state = .running) (h : connection.Runs own) :
    (connection.setSubscription changed).Runs own := by
  obtain ⟨subscription, hmem, hport, hstate⟩ := h
  refine ⟨_, List.mem_map_of_mem hmem, ?_⟩
  by_cases hown : subscription.port = changed.port
  · rw [if_pos hown]
    exact ⟨hown.symm.trans hport, hchanged⟩
  · rw [if_neg hown]
    exact ⟨hport, hstate⟩

/-- A forwarder whose event can be encoded passes it on and goes on running. -/
theorem Attends.forward_eq (h : connection.Attends) {daemonEpoch : Uuid} {port : String}
    {forwarding : Forwarding} (hencodes : forwarding ≠ .unencodable)
    (hnext : connection.forward daemonEpoch port forwarding = some next) :
    ∃ (changed : Subscription) (frames : List ServerFrame),
      next = { connection.setSubscription changed with
        outbound := connection.outbound ++ frames } ∧ changed.state = .running ∧
      changed.unread ≤ broadcastQueue ∧
      ∀ requestId reply, .result requestId reply ∉ frames := by
  unfold Connection.forward at hnext
  obtain ⟨subscription, hfind, htaken⟩ := Option.bind_eq_some_iff.mp hnext
  have hmem := List.mem_of_find?_eq_some hfind
  have hstate : subscription.state = .running := by
    have hboth := List.find?_some hfind
    exact (of_decide_eq_true hboth).2
  have hbounded := h.bounded subscription hmem (by simp [hstate])
  split at htaken
  · simp at htaken
  · split at htaken
    · rename_i hlags
      exact absurd hlags (Nat.not_lt.mpr hbounded)
    · have hle : subscription.unread - 1 ≤ broadcastQueue :=
        le_trans (Nat.sub_le _ _) hbounded
      dsimp only at htaken
      split at htaken
      · cases htaken
        refine ⟨{ subscription with unread := subscription.unread - 1 }, [], ?_, hstate, hle, by simp⟩
        rw [List.append_nil]
        rfl
      · cases htaken
        exact ⟨_, _, rfl, hstate, hle, by simp [eventFrame]⟩
      · cases htaken
        exact ⟨_, _, rfl, hstate, hle, by simp [eventFrame]⟩
      · exact absurd rfl hencodes

theorem Attends.forward (h : connection.Attends) {daemonEpoch : Uuid} {port : String}
    {forwarding : Forwarding} (hencodes : forwarding ≠ .unencodable)
    (hnext : connection.forward daemonEpoch port forwarding = some next) :
    next.Attends ∧ (connection.Attached → next.Attached) := by
  obtain ⟨changed, frames, rfl, hstate, hle, hframes⟩ := h.forward_eq hencodes hnext
  have hruns : ∀ own, connection.Runs own → { connection.setSubscription changed with
      outbound := connection.outbound ++ frames }.Runs own :=
    fun own hown => runs_setSubscription hstate hown
  constructor
  · refine h.forwarded hruns (fun requestId ports => hframes requestId _) ?_
    intro subscription hsubscription hrunning
    obtain ⟨old, hold, rfl⟩ := List.mem_map.mp hsubscription
    by_cases hown : old.port = changed.port
    · rw [if_pos hown]
      exact hle
    · rw [if_neg hown] at hrunning ⊢
      exact h.bounded old hold hrunning
  · intro hattached
    exact attached_of_same hattached rfl rfl le_rfl (fun hmessage => hmessage) hruns

/-- The messages of the client which these actions send -/
def messages (actions : List (SocketId × SocketAction)) : List ClientMessage :=
  (actions.filterMap sentMessage).map Prod.snd

/-- What the client does reaches the connection: messages are added and the socket may be
terminated. -/
theorem foldl_take (actions : List (SocketId × SocketAction)) (connection : Connection) :
    ∃ closing, actions.foldl (fun connection action => connection.take action.2) connection =
      { connection with sent := connection.sent ++ messages actions, closing := closing } ∧
      (connection.closing = true → closing = true) := by
  induction actions generalizing connection with
  | nil => exact ⟨connection.closing, by simp [messages], fun h => h⟩
  | cons action actions ih =>
      obtain ⟨socket, action⟩ := action
      obtain ⟨closing, heq, hclosing⟩ := ih (connection.take action)
      rw [List.foldl_cons, heq]
      cases action with
      | send message =>
          refine ⟨closing, ?_, hclosing⟩
          simp [Connection.take, messages, sentMessage]
      | close => exact ⟨closing, rfl, hclosing⟩
      | terminate => exact ⟨closing, rfl, fun _ => hclosing rfl⟩

theorem sent_append {sent : List ClientMessage} {i : ℕ} {message : ClientMessage}
    (h : connection.sent[i]? = some message) : (connection.sent ++ sent)[i]? = some message := by
  rw [List.getElem?_append_left (List.getElem?_eq_some_iff.mp h).1]
  exact h

theorem attached_append {sent : List ClientMessage} {closing : Bool} (h : connection.Attached) :
    { connection with sent := connection.sent ++ sent, closing := closing }.Attached :=
  attached_of_same h rfl rfl le_rfl sent_append (fun _ hruns => hruns)

theorem Attends.append (h : connection.Attends) {sent : List ClientMessage} {closing : Bool} :
    { connection with sent := connection.sent ++ sent, closing := closing }.Attends where
  attaching := by
    intro attaching hsome
    obtain ⟨⟨i, hlt, hmessage⟩, hruns⟩ := h.attaching attaching hsome
    exact ⟨⟨i, hlt, sent_append hmessage⟩, hruns⟩
  answered := by
    intro requestId ports hresult
    obtain ⟨hattached, requested, hsent⟩ := h.answered requestId ports hresult
    exact ⟨attached_append hattached, requested, List.mem_append_left _ hsent⟩
  bounded := h.bounded

end Connection

/-! ## The conversation of the client and the daemon -/

/-- The messages among these which go out on a socket -/
def sentOn (socket : SocketId) (sends : List (SocketId × ClientMessage)) : List ClientMessage :=
  (sends.filter fun send => send.1 = socket).map Prod.snd

theorem mem_sentOn {socket : SocketId} {sends : List (SocketId × ClientMessage)}
    {message : ClientMessage} : message ∈ sentOn socket sends ↔ (socket, message) ∈ sends := by
  simp [sentOn]

/-- How the calls of the client stand to what has been sent and answered -/
structure Linked (client : SerialClient) (connection : SocketId → Connection) : Prop where
  ids : ∀ socket, ∀ message ∈ (connection socket).sent, message.requestId < client.nextId
  owner : ∀ {socket other message message'}, message ∈ (connection socket).sent →
    message' ∈ (connection other).sent → message.requestId = message'.requestId → socket = other
  single : ∀ socket, (connection socket).SingleAttach
  made : ∀ socket, (connection socket).sent ≠ [] → socket < client.sockets.length
  before : ∀ call ∈ client.calls, ∀ {socket expected awaiting},
    call.stage = .opening socket expected awaiting → awaiting.beforeAttach = true →
      ∀ requestId ports, .attach requestId ports ∉ (connection socket).sent
  attach : ∀ call ∈ client.calls, ∀ {socket expected actor requestId},
    call.stage = .opening socket expected (.attach actor requestId) →
      .attach requestId expected.ports ∈ (connection socket).sent
  attached : ∀ call ∈ client.calls, ∀ {socket expected actor ports},
    call.stage = .opening socket expected (.attached actor (.attached (some ports))) →
      (connection socket).Attached
  ready : ∀ socket, client.readySocket = some socket → (connection socket).Attached
  attends : ∀ socket, (connection socket).Attends

/-- A socket whose connection is gone has closed, or its `close` event is on its way. -/
def Faded (client : SerialClient) (connection : SocketId → Connection) : Prop :=
  ∀ socket, (connection socket).returned = true → (connection socket).closing = false →
    client.Dead socket ∧ socket < client.sockets.length

section Effects

variable {client next : SerialClient} {sends : List (SocketId × ClientMessage)}
  {result : Option (RequestId × Reply)} {connection connection' : SocketId → Connection}

theorem dead_of_effect (heffect : client.Effect sends result next) {socket : SocketId}
    (hdead : client.Dead socket) (hmade : socket < client.sockets.length) : next.Dead socket := by
  have hgone : ∀ old ∈ client.calls, ∀ {expected awaiting},
      old.stage = .opening socket expected awaiting → awaiting = .failed :=
    fun old hold _ _ hstage => hdead.2 old hold _ _ hstage
  constructor
  · intro hready
    cases heffect.ready socket hready with
    | inl hold => exact hdead.1 hold
    | inr hold =>
        obtain ⟨old, hold, _, _, _, hstage, _⟩ := hold
        have hfailed := hgone old hold hstage
        simp at hfailed
  · intro call hcall expected awaiting hstage
    by_contra hworks
    obtain hfollows | ⟨actor, requestId, _, hsends⟩ | ⟨_, _, _, _, _, old, hold, hwas⟩ :=
      heffect.stages call hcall hstage hworks
    · cases hfollows with
      | inl hnew => exact absurd hmade (Nat.not_lt.mpr hnew.1)
      | inr hold =>
          obtain ⟨old, hold, before, was, hwas, hsame⟩ := hold
          have hfailed := hgone old hold hwas
          subst hfailed
          cases hsame with
          | inl hboth => simp [Awaiting.beforeAttach] at hboth
          | inr heq => exact hworks heq.2.symm
    · obtain ⟨⟨old, hold, _, was, hwas, hbefore⟩, _⟩ :=
        heffect.attach socket requestId expected.ports (by rw [hsends]; simp)
      have hfailed := hgone old hold hwas
      rw [hfailed] at hbefore
      simp [Awaiting.beforeAttach] at hbefore
    · have hfailed := hgone old hold hwas
      simp at hfailed

/-- Two calls on one socket are the same. -/
theorem eq_of_socket (h : client.Connected) {call other : Call} (hcall : call ∈ client.calls)
    (hother : other ∈ client.calls) {socket : SocketId} {expected expected' : Status}
    {awaiting awaiting' : Awaiting} (hstage : call.stage = .opening socket expected awaiting)
    (hstage' : other.stage = .opening socket expected' awaiting') : call = other :=
  SerialClient.eq_of_id h.course.toOrderly hcall hother
    (h.sockets.apart call hcall other hother hstage hstage')

/-- The client goes on, and what it sends reaches its connections. -/
theorem Linked.advance (h : Linked client connection) (hnext : next.Connected)
    (heffect : client.Effect sends result next)
    (hconnection : ∀ socket, ∃ closing, connection' socket = { connection socket with
      sent := (connection socket).sent ++ sentOn socket sends, closing := closing })
    (hresult : ∀ requestId ports, result = some (requestId, .attached (some ports)) →
      ∃ socket, (connection socket).Attached ∧
        ∃ requested, .attach requestId requested ∈ (connection socket).sent) :
    Linked next connection' := by
  have hsent : ∀ socket, (connection' socket).sent =
      (connection socket).sent ++ sentOn socket sends := by
    intro socket
    obtain ⟨closing, heq⟩ := hconnection socket
    rw [heq]
  have hattached : ∀ socket, (connection socket).Attached → (connection' socket).Attached := by
    intro socket hold
    obtain ⟨closing, heq⟩ := hconnection socket
    rw [heq]
    exact Connection.attached_append hold
  have hfresh : ∀ {socket message}, message ∈ sentOn socket sends →
      socket < client.sockets.length ∧ message.requestId = client.nextId ∧
        client.nextId < next.nextId :=
    fun hmem => heffect.fresh _ (mem_sentOn.mp hmem)
  have hmem : ∀ {socket message}, message ∈ (connection' socket).sent →
      message ∈ (connection socket).sent ∨ message ∈ sentOn socket sends := by
    intro socket message hmessage
    rw [hsent] at hmessage
    exact List.mem_append.mp hmessage
  -- A socket on which no Attach was due has sent none before this event.
  have hunsent : ∀ {socket requestId ports}, .attach requestId ports ∈ sentOn socket sends →
      ∀ requestId' ports', .attach requestId' ports' ∉ (connection socket).sent := by
    intro socket requestId ports hattach
    obtain ⟨⟨old, hold, _, was, hwas, hbefore⟩, _⟩ :=
      heffect.attach socket requestId ports (mem_sentOn.mp hattach)
    exact h.before old hold hwas hbefore
  constructor
  · intro socket message hmessage
    cases hmem hmessage with
    | inl hold => exact lt_of_lt_of_le (h.ids socket message hold) heffect.ids
    | inr hnew =>
        obtain ⟨_, hid, hlt⟩ := hfresh hnew
        rw [hid]
        exact hlt
  · intro socket other message message' hmessage hmessage' hid
    cases hmem hmessage with
    | inl hold =>
        cases hmem hmessage' with
        | inl hold' => exact h.owner hold hold' hid
        | inr hnew' =>
            have hlt := h.ids socket message hold
            rw [hid, (hfresh hnew').2.1] at hlt
            exact absurd hlt (Nat.lt_irrefl _)
    | inr hnew =>
        cases hmem hmessage' with
        | inl hold' =>
            have hlt := h.ids other message' hold'
            rw [← hid, (hfresh hnew).2.1] at hlt
            exact absurd hlt (Nat.lt_irrefl _)
        | inr hnew' =>
            have hsingle := heffect.single
            have hfirst := mem_sentOn.mp hnew
            have hsecond := mem_sentOn.mp hnew'
            match sends, hsingle, hfirst, hsecond with
            | [send], _, hfirst, hsecond =>
                rw [List.mem_singleton] at hfirst hsecond
                exact congrArg Prod.fst (hfirst.trans hsecond.symm)
  · intro socket i j requestId ports requestId' ports' hi hj
    rw [hsent] at hi hj
    have hlength : (sentOn socket sends).length ≤ 1 := by
      refine le_trans ?_ heffect.single
      rw [sentOn, List.length_map]
      exact List.length_filter_le _ _
    rw [List.getElem?_append] at hi hj
    split at hi
    · split at hj
      · exact h.single socket hi hj
      · exact absurd (List.mem_of_getElem? hi) (hunsent (List.mem_of_getElem? hj) _ _)
    · split at hj
      · exact absurd (List.mem_of_getElem? hj) (hunsent (List.mem_of_getElem? hi) _ _)
      · have hltI := (List.getElem?_eq_some_iff.mp hi).1
        have hltJ := (List.getElem?_eq_some_iff.mp hj).1
        omega
  · intro socket hnonempty
    have hsome := List.exists_mem_of_ne_nil _ hnonempty
    obtain ⟨message, hmessage⟩ := hsome
    cases hmem hmessage with
    | inl hold =>
        exact lt_of_lt_of_le (h.made socket (List.ne_nil_of_mem hold)) heffect.sockets
    | inr hnew => exact lt_of_lt_of_le (hfresh hnew).1 heffect.sockets
  · intro call hcall socket expected awaiting hstage hbefore requestId ports hattach
    have hworks : awaiting ≠ .failed := by
      intro hfailed
      rw [hfailed] at hbefore
      simp [Awaiting.beforeAttach] at hbefore
    cases hmem hattach with
    | inr hnew =>
        obtain ⟨_, other, hother, _, _, hstage', _⟩ :=
          heffect.attach socket requestId ports (mem_sentOn.mp hnew)
        have hsame := eq_of_socket hnext hcall hother hstage hstage'
        rw [hsame, hstage'] at hstage
        injection hstage with _ _ hawaiting
        rw [← hawaiting] at hbefore
        simp [Awaiting.beforeAttach] at hbefore
    | inl hold =>
        obtain hfollows | ⟨_, _, hawaiting, _⟩ | ⟨_, _, _, _, hawaiting, _⟩ :=
          heffect.stages call hcall hstage hworks
        · cases hfollows with
          | inl hnew =>
              have hmade := h.made socket (List.ne_nil_of_mem hold)
              exact absurd hmade (Nat.not_lt.mpr hnew.1)
          | inr hcame =>
              obtain ⟨old, hmemOld, _, was, hwas, hsame⟩ := hcame
              have hwasBefore : was.beforeAttach = true := by
                cases hsame with
                | inl hboth => exact hboth.1
                | inr heq => rw [heq.2]; exact hbefore
              exact h.before old hmemOld hwas hwasBefore requestId ports hold
        · rw [hawaiting] at hbefore
          simp [Awaiting.beforeAttach] at hbefore
        · rw [hawaiting] at hbefore
          simp [Awaiting.beforeAttach] at hbefore
  · intro call hcall socket expected actor requestId hstage
    rw [hsent]
    obtain hfollows | ⟨_, requestId', hawaiting, hsends⟩ | ⟨_, _, _, _, hawaiting, _⟩ :=
      heffect.stages call hcall hstage (by simp)
    · cases hfollows with
      | inl hnew => simp [Awaiting.beforeAttach] at hnew
      | inr hcame =>
          obtain ⟨old, hold, before, was, hwas, ⟨_, hbefore⟩ | ⟨rfl, rfl⟩⟩ := hcame
          · simp [Awaiting.beforeAttach] at hbefore
          · exact List.mem_append_left _ (h.attach old hold hwas)
    · injection hawaiting with _ hid
      refine List.mem_append_right _ (mem_sentOn.mpr ?_)
      rw [hsends, hid]
      exact List.mem_singleton.mpr rfl
    · simp at hawaiting
  · intro call hcall socket expected actor ports hstage
    apply hattached
    obtain hfollows | ⟨_, _, hawaiting, _⟩ |
        ⟨_, requestId, reply, hresultOf, hawaiting, old, hold, hwas⟩ :=
      heffect.stages call hcall hstage (by simp)
    · cases hfollows with
      | inl hnew => simp [Awaiting.beforeAttach] at hnew
      | inr hcame =>
          obtain ⟨old, hold, before, was, hwas, ⟨_, hbefore⟩ | ⟨rfl, rfl⟩⟩ := hcame
          · simp [Awaiting.beforeAttach] at hbefore
          · exact h.attached old hold hwas
    · simp at hawaiting
    · injection hawaiting with _ hreply
      rw [← hreply] at hresultOf
      obtain ⟨other, hother, requested, hrequested⟩ := hresult requestId ports hresultOf
      have hsame := h.owner (h.attach old hold hwas) hrequested rfl
      rw [hsame]
      exact hother
  · intro socket hready
    apply hattached
    cases heffect.ready socket hready with
    | inl hold => exact h.ready socket hold
    | inr hcame =>
        obtain ⟨old, hold, _, _, _, hwas, _⟩ := hcame
        exact h.attached old hold hwas
  · intro socket
    obtain ⟨closing, heq⟩ := hconnection socket
    rw [heq]
    exact (h.attends socket).append

/-- The daemon goes on with one connection. -/
theorem Linked.served (h : Linked client connection) {socket : SocketId} {served : Connection}
    (hsent : served.sent = (connection socket).sent) (hattends : served.Attends)
    (hattached : (connection socket).Attached → served.Attached) :
    Linked client (Function.update connection socket served) := by
  have hsame : ∀ other, (Function.update connection socket served other).sent =
      (connection other).sent := by
    intro other
    by_cases hown : other = socket
    · rw [hown, Function.update_self, hsent]
    · rw [Function.update_of_ne hown]
  have hkept : ∀ other, (connection other).Attached →
      (Function.update connection socket served other).Attached := by
    intro other hother
    by_cases hown : other = socket
    · subst hown
      rw [Function.update_self]
      exact hattached hother
    · rw [Function.update_of_ne hown]
      exact hother
  constructor
  · intro other
    rw [hsame]
    exact h.ids other
  · intro other another message message'
    rw [hsame, hsame]
    exact h.owner
  · intro other
    unfold Connection.SingleAttach
    rw [hsame]
    exact h.single other
  · intro other
    rw [hsame]
    exact h.made other
  · intro call hcall own expected awaiting hstage hbefore
    rw [hsame]
    exact h.before call hcall hstage hbefore
  · intro call hcall own expected actor requestId hstage
    rw [hsame]
    exact h.attach call hcall hstage
  · intro call hcall own expected actor ports hstage
    exact hkept own (h.attached call hcall hstage)
  · intro own hready
    exact hkept own (h.ready own hready)
  · intro other
    by_cases hown : other = socket
    · rw [hown, Function.update_self]
      exact hattends
    · rw [Function.update_of_ne hown]
      exact h.attends other

end Effects

/-! ## Runs of the client and the daemon -/

namespace World

variable {world next : World}

/-- Nothing interferes with the connection of the client, every receiver has room for the
next event of its port, and every event which is forwarded can be encoded. -/
def Smooth (happening : Happening) (world : World) : Prop :=
  match happening with
  | .client event => world.client.Undisturbed event
  | .emit port => ∀ socket, (world.connection socket).HasRoom port
  | .forward _ _ forwarding => forwarding ≠ .unencodable
  | _ => True

structure InOrder (world : World) : Prop where
  connected : world.client.Connected
  linked : Linked world.client world.connection
  faded : Faded world.client world.connection

theorem connection_advance {client : SerialClient} {sends : List (SocketId × ClientMessage)}
    {result : Option (RequestId × Reply)} (heffect : world.client.Effect sends result client)
    (socket : SocketId) : ∃ closing, (world.advance client).connection socket =
      { world.connection socket with
        sent := (world.connection socket).sent ++ sentOn socket sends, closing := closing } ∧
      ((world.connection socket).closing = true → closing = true) := by
  obtain ⟨actions, houtbox, hsends⟩ := heffect.outbox
  obtain ⟨closing, heq, hclosing⟩ := Connection.foldl_take
    (actions.filter fun action => action.1 = socket) (world.connection socket)
  refine ⟨closing, ?_, hclosing⟩
  have hmessages : Connection.messages (actions.filter fun action => action.1 = socket) =
      sentOn socket sends := by
    rw [Connection.messages, sentOn, ← hsends]
    congr 1
    clear heq hclosing hsends houtbox
    induction actions with
    | nil => rfl
    | cons action actions ih =>
        obtain ⟨own, action⟩ := action
        cases action with
        | send message =>
            by_cases hown : own = socket <;> simp [sentMessage, hown, ih]
        | close =>
            by_cases hown : own = socket <;> simp [List.filterMap_cons, sentMessage, hown, ih]
        | terminate =>
            by_cases hown : own = socket <;> simp [List.filterMap_cons, sentMessage, hown, ih]
  rw [← hmessages, ← heq]
  simp only [advance, houtbox, List.drop_left]

theorem faded_advance {client : SerialClient} {sends : List (SocketId × ClientMessage)}
    {result : Option (RequestId × Reply)} (heffect : world.client.Effect sends result client)
    (h : Faded world.client world.connection) :
    Faded client (world.advance client).connection := by
  intro socket hreturned hclosing
  obtain ⟨closing, heq, hmono⟩ := connection_advance heffect socket
  rw [heq] at hreturned hclosing
  have hopen : (world.connection socket).closing = false := by
    by_contra htrue
    rw [Bool.not_eq_false] at htrue
    have hnow : closing = false := hclosing
    rw [hmono htrue] at hnow
    simp at hnow
  obtain ⟨hdead, hmade⟩ := h socket hreturned hopen
  exact ⟨dead_of_effect heffect hdead hmade, lt_of_lt_of_le hmade heffect.sockets⟩

/-- Frames which have left the connection confirm nothing any more. -/
theorem attends_outbound {connection : Connection} {outbound : List ServerFrame} {closing : Bool}
    (h : connection.Attends) (hsubset : ∀ frame ∈ outbound, frame ∈ connection.outbound) :
    { connection with outbound := outbound, closing := closing }.Attends where
  attaching := h.attaching
  answered := by
    intro requestId ports hresult
    apply h.answered requestId ports
    cases List.mem_append.mp hresult with
    | inl hsending => exact List.mem_append_left _ hsending
    | inr houtbound => exact List.mem_append_right _ (hsubset _ houtbound)
  bounded := h.bounded

theorem InOrder.event (h : world.InOrder) {event : Event} {client : SerialClient}
    (hundisturbed : world.client.Undisturbed event)
    (hstep : SerialClient.step event world.client = some client)
    (hmessage : ∀ socket frame, event ≠ .message socket frame) :
    ((world.forget event).advance client).InOrder := by
  have hconnected := h.connected.step hundisturbed hstep
  obtain ⟨sends, heffect⟩ := h.connected.effect hstep
  have hnone : SerialClient.resultOf event = none := by
    cases event with
    | message socket frame => exact absurd rfl (hmessage socket frame)
    | timer | configured | historyLoaded | refreshed | opened | error | closed | timeout
      | sendFailed | request | reconnectSocket | stop | resume => rfl
  by_cases hclosed : ∃ socket, event = .closed socket
  · obtain ⟨socket, rfl⟩ := hclosed
    have hlinked : Linked world.client (world.forget (.closed socket)).connection := by
      refine h.linked.served ?_ ?_ ?_
      · rfl
      · exact attends_outbound (h.linked.attends socket) (by simp)
      · intro hattached
        exact Connection.attached_of_same hattached rfl rfl le_rfl (fun hmessage => hmessage)
          (fun _ hruns => hruns)
    have heffect' : (world.forget (.closed socket)).client.Effect sends
        (SerialClient.resultOf (.closed socket)) client := heffect
    refine ⟨hconnected, ?_, ?_⟩
    · refine hlinked.advance hconnected heffect (fun own => ?_) (fun _ _ hsome => ?_)
      · obtain ⟨closing, heq, _⟩ := connection_advance heffect' own
        exact ⟨closing, heq⟩
      · simp [SerialClient.resultOf] at hsome
    · intro own hreturned hclosing
      by_cases hown : own = socket
      · obtain ⟨hdead, hmade⟩ := h.connected.dead_of_closed hstep
        rw [hown]
        exact ⟨hdead, lt_of_lt_of_le hmade heffect.sockets⟩
      · obtain ⟨closing, heq, hmono⟩ := connection_advance heffect' own
        have hother : (world.forget (.closed socket)).connection own = world.connection own :=
          Function.update_of_ne hown _ _
        rw [heq, hother] at hreturned hclosing
        rw [hother] at hmono
        have hopen : (world.connection own).closing = false := by
          by_contra htrue
          rw [Bool.not_eq_false] at htrue
          have hnow : closing = false := hclosing
          rw [hmono htrue] at hnow
          simp at hnow
        obtain ⟨hdead, hmade⟩ := h.faded own hreturned hopen
        exact ⟨dead_of_effect heffect hdead hmade, lt_of_lt_of_le hmade heffect.sockets⟩
  · have hforget : world.forget event = world := by
      cases event with
      | closed socket => exact absurd ⟨socket, rfl⟩ hclosed
      | timer | configured | historyLoaded | refreshed | opened | error | message | timeout
        | sendFailed | request | reconnectSocket | stop | resume => rfl
    rw [hforget]
    refine ⟨hconnected, ?_, faded_advance heffect h.faded⟩
    refine h.linked.advance hconnected heffect (fun own => ?_) (fun _ _ hsome => ?_)
    · obtain ⟨closing, heq, _⟩ := connection_advance heffect own
      exact ⟨closing, heq⟩
    · simp [hnone] at hsome

theorem InOrder.delivered (h : world.InOrder) {socket : SocketId} {frame : ServerFrame}
    {frames : List ServerFrame} {client : SerialClient}
    (houtbound : (world.connection socket).outbound = frame :: frames)
    (hstep : SerialClient.step (.message socket frame) world.client = some client) :
    ((world.setConnection socket
      { world.connection socket with outbound := frames }).advance client).InOrder := by
  have hundisturbed : world.client.Undisturbed (.message socket frame) := trivial
  have hconnected := h.connected.step hundisturbed hstep
  obtain ⟨sends, heffect⟩ := h.connected.effect hstep
  have hlinked : Linked world.client (world.setConnection socket
      { world.connection socket with outbound := frames }).connection := by
    refine h.linked.served ?_ ?_ ?_
    · rfl
    · refine attends_outbound (h.linked.attends socket) ?_
      intro other hother
      rw [houtbound]
      exact List.mem_cons_of_mem _ hother
    · intro hattached
      exact Connection.attached_of_same hattached rfl rfl le_rfl (fun hmessage => hmessage)
        (fun _ hruns => hruns)
  have hfaded : Faded world.client (world.setConnection socket
      { world.connection socket with outbound := frames }).connection := by
    intro own hreturned hclosing
    by_cases hown : own = socket
    · subst hown
      simp only [setConnection, Function.update_self] at hreturned hclosing
      exact h.faded own hreturned hclosing
    · simp only [setConnection, Function.update_of_ne hown] at hreturned hclosing
      exact h.faded own hreturned hclosing
  have heffect' : (world.setConnection socket
      { world.connection socket with outbound := frames }).client.Effect sends
        (SerialClient.resultOf (.message socket frame)) client := heffect
  refine ⟨hconnected, ?_, faded_advance heffect' hfaded⟩
  refine hlinked.advance hconnected heffect (fun own => ?_) ?_
  · obtain ⟨closing, heq, _⟩ := connection_advance heffect' own
    exact ⟨closing, heq⟩
  · intro requestId ports hresult
    have hframe : frame = .result requestId (.attached (some ports)) := by
      cases frame with
      | result own reply =>
          simp only [SerialClient.resultOf, Option.some.injEq, Prod.mk.injEq] at hresult
          rw [hresult.1, hresult.2]
      | undecodable | data | welcome | snapshot | timeline | error | gap | lagged | replayBegin
        | ready => simp [SerialClient.resultOf] at hresult
    obtain ⟨hattached, requested, hsent⟩ := (h.linked.attends socket).answered requestId ports
      (by rw [houtbound, hframe]; simp)
    refine ⟨socket, ?_, requested, ?_⟩
    · simp only [setConnection, Function.update_self]
      exact Connection.attached_of_same hattached rfl rfl le_rfl (fun hmessage => hmessage)
        (fun _ hruns => hruns)
    · simp only [setConnection, Function.update_self]
      exact hsent

/-- The daemon goes on with one connection, which does not return without closing. -/
theorem InOrder.served (h : world.InOrder) {socket : SocketId} {served : Connection}
    (hsent : served.sent = (world.connection socket).sent) (hattends : served.Attends)
    (hattached : (world.connection socket).Attached → served.Attached)
    (hclosing : served.closing = true ∨ served.closing = (world.connection socket).closing ∧
      served.returned = (world.connection socket).returned) :
    (world.setConnection socket served).InOrder where
  connected := h.connected
  linked := h.linked.served hsent hattends hattached
  faded := by
    intro own hreturned hopen
    by_cases hown : own = socket
    · subst hown
      simp only [setConnection, Function.update_self] at hreturned hopen
      cases hclosing with
      | inl hclosed => simp [hclosed] at hopen
      | inr hsame =>
          rw [hsame.1] at hopen
          rw [hsame.2] at hreturned
          exact h.faded own hreturned hopen
    · simp only [setConnection, Function.update_of_ne hown] at hreturned hopen
      exact h.faded own hreturned hopen

/-- An event of a port is broadcast to receivers which have room for it. -/
theorem InOrder.emitted (h : world.InOrder) {port : String}
    (hroom : ∀ socket, (world.connection socket).HasRoom port) :
    { world with connection := fun socket => (world.connection socket).emit port }.InOrder where
  connected := h.connected
  linked := by
    have hattached : ∀ socket, (world.connection socket).Attached →
        ((world.connection socket).emit port).Attached := fun socket hold =>
      Connection.attached_of_same hold rfl rfl le_rfl (fun hmessage => hmessage)
        (fun _ hruns => Connection.runs_emit hruns)
    exact {
      ids := h.linked.ids
      owner := h.linked.owner
      single := h.linked.single
      made := h.linked.made
      before := h.linked.before
      attach := h.linked.attach
      attached := fun call hcall _ _ _ _ hstage =>
        hattached _ (h.linked.attached call hcall hstage)
      ready := fun socket hready => hattached socket (h.linked.ready socket hready)
      attends := fun socket => (h.linked.attends socket).emit (hroom socket) }
  faded := h.faded

theorem InOrder.step (h : world.InOrder) {happening : Happening}
    (hsmooth : world.Smooth happening) (hstep : World.step happening world = some next) :
    next.InOrder := by
  cases happening with
  | client event =>
      cases event with
      | message socket frame => simp [World.step] at hstep
      | timer | configured | historyLoaded | refreshed | opened | error | closed | timeout
        | sendFailed | request | reconnectSocket | stop | resume =>
          obtain ⟨client, hclient, rfl⟩ := Option.map_eq_some_iff.mp hstep
          exact h.event hsmooth hclient (by simp)
  | deliver socket =>
      simp only [World.step] at hstep
      split at hstep
      · simp at hstep
      · rename_i frame frames houtbound
        obtain ⟨client, hclient, rfl⟩ := Option.map_eq_some_iff.mp hstep
        exact h.delivered houtbound hclient
  | serve socket answer =>
      obtain ⟨served, hserved, rfl⟩ := Option.map_eq_some_iff.mp hstep
      obtain ⟨hsent, hclosing⟩ := Connection.serve_kept hserved
      have hsingle : (world.connection socket).SingleAttach := h.linked.single socket
      exact h.served hsent ((h.linked.attends socket).serve hsingle hserved)
        (fun hattached => hattached.serve hsingle hserved) hclosing
  | emit port =>
      cases hstep
      exact h.emitted hsmooth
  | forward socket port forwarding =>
      obtain ⟨forwarded, hforwarded, rfl⟩ := Option.map_eq_some_iff.mp hstep
      have hattends := h.linked.attends socket
      obtain ⟨changed, frames, hshape, _⟩ := hattends.forward_eq hsmooth hforwarded
      obtain ⟨hnext, hattached⟩ := hattends.forward hsmooth hforwarded
      refine h.served ?_ hnext hattached (Or.inr ?_)
      · rw [hshape]
        rfl
      · rw [hshape]
        exact ⟨rfl, rfl⟩
  | drop socket =>
      simp only [World.step] at hstep
      split at hstep
      · simp at hstep
      · cases hstep
        refine h.served rfl ?_ ?_ (Or.inl rfl)
        · exact (h.linked.attends socket).finish
        · intro _
          exact Or.inl rfl

theorem inOrder_started (response : StatusResponse) (actor : Actor) :
    (started response actor).InOrder where
  connected := SerialClient.connected_started response actor
  linked := by
    have hstarted : ∀ socket, ((started response actor).connection socket).sent =
        if socket = 0 then [.attach 0 (response.ports.map Prod.fst)] else [] := by
      intro socket
      by_cases hzero : socket = 0 <;> simp [started, hzero, Connection.new]
    have hattached : ((started response actor).connection 0).Attached := by
      refine Or.inr ⟨rfl, 0, 0, response.ports.map Prod.fst, Nat.zero_lt_one, rfl, ?_⟩
      intro port hport
      obtain ⟨own, hown, rfl⟩ := List.mem_map.mp hport
      exact ⟨_, List.mem_map_of_mem hown, rfl, rfl⟩
    constructor
    · intro socket message hmessage
      rw [hstarted] at hmessage
      split at hmessage
      · rw [List.mem_singleton.mp hmessage]
        exact Nat.zero_lt_one
      · simp at hmessage
    · intro socket other message message' hmessage hmessage' _
      rw [hstarted] at hmessage hmessage'
      split at hmessage
      · split at hmessage'
        · rename_i hfirst hsecond
          exact hfirst.trans hsecond.symm
        · simp at hmessage'
      · simp at hmessage
    · intro socket i j _ _ _ _ hi hj
      have hlt := (List.getElem?_eq_some_iff.mp hi).1
      have hlt' := (List.getElem?_eq_some_iff.mp hj).1
      rw [hstarted] at hlt hlt'
      split at hlt
      · rename_i hzero
        rw [if_pos hzero] at hlt'
        simp only [List.length_singleton] at hlt hlt'
        omega
      · simp at hlt
    · intro socket hsent
      rw [hstarted] at hsent
      split at hsent
      · rename_i hzero
        rw [hzero]
        exact Nat.zero_lt_one
      · simp at hsent
    · intro call hcall
      simp [started, SerialClient.started] at hcall
    · intro call hcall
      simp [started, SerialClient.started] at hcall
    · intro call hcall
      simp [started, SerialClient.started] at hcall
    · intro socket hready
      have hzero : socket = 0 := by simpa [started, SerialClient.started] using hready.symm
      rw [hzero]
      exact hattached
    · intro socket
      by_cases hzero : socket = 0
      · rw [hzero]
        constructor
        · simp [started, Connection.new]
        · simp [started, Connection.new]
        · intro subscription hsubscription _
          obtain ⟨own, _, rfl⟩ := List.mem_map.mp hsubscription
          exact Nat.zero_le _
      · have hnew : (started response actor).connection socket = Connection.new := by
          simp [started, hzero]
        rw [hnew]
        exact Connection.attends_new
  faded := by
    intro socket hreturned
    by_cases hzero : socket = 0
    · simp [started, hzero, Connection.new] at hreturned
    · simp [started, Function.update_of_ne hzero, Connection.new] at hreturned

theorem InOrder.subscribed (h : world.InOrder) : world.Subscribed := by
  intro socket hready _ hopen requestId ports hsent port hport
  have hlive : (world.connection socket).returned ≠ true := by
    intro hreturned
    exact (h.faded socket hreturned hopen).1.1 hready
  cases h.linked.ready socket hready with
  | inl hgone => exact absurd hgone hlive
  | inr hdone =>
      obtain ⟨_, i, requestId', ports', _, hmessage, hruns⟩ := hdone
      obtain ⟨j, hj⟩ := List.mem_iff_getElem?.mp hsent
      rw [h.linked.single socket hmessage hj] at hmessage
      rw [hj] at hmessage
      simp only [Option.some.injEq, ClientMessage.attach.injEq] at hmessage
      rw [← hmessage.2] at hruns
      exact hruns port hport

/-- In every run in which no receiver falls behind and nothing interferes with the current
connection, the ports of a ready socket keep their forwarders. -/
theorem ready_ports_stay_subscribed {response : StatusResponse} {actor : Actor}
    (h : GuardedRuns.Reaches World.step (fun happening world => world.Smooth happening)
      (started response actor) world) : world.Subscribed := by
  have hinOrder := h.invariant (inOrder_started response actor)
    fun hworld hsmooth hstep => hworld.step hsmooth hstep
  exact hinOrder.subscribed

/-! ### A forwarder which lags -/

/-- A daemon with one port -/
def singlePort : StatusResponse := ⟨7, 8, serialProtocolVersion, [("COM1", 8)]⟩

/-- Nothing is broadcast meanwhile. -/
def Calm (happening : Happening) (world : World) : Prop :=
  match happening with
  | .client event => world.client.Undisturbed event
  | .emit _ | .forward _ _ _ => False
  | .deliver _ | .serve _ _ | .drop _ => True

instance (happening : Happening) (world : World) : Decidable (world.Calm happening) := by
  cases happening with
  | client event => exact inferInstanceAs (Decidable (world.client.Undisturbed event))
  | emit | forward => exact isFalse id
  | deliver | serve | drop => exact isTrue trivial

theorem Calm.smooth {happening : Happening} (h : world.Calm happening) :
    world.Smooth happening := by
  cases happening with
  | client event => exact h
  | emit port => exact absurd h id
  | forward socket port forwarding => exact absurd h id
  | deliver | serve | drop => trivial

/-- The connection is lost and the client attaches the port once more. -/
def reconnection : List Happening := [
  .drop 0, .client (.closed 0), .client (.timer 1), .client (.configured 2 (some singlePort)),
  .client (.historyLoaded 2), .client (.opened 1), .client (.resume 2),
  .serve 1 (.accepted SerialClient.desktopUser), .serve 1 .done, .serve 1 .done,
  .deliver 1, .deliver 1, .client (.resume 2),
  .serve 1 .done, .serve 1 (.replay false []), .serve 1 .done, .serve 1 .done, .serve 1 .done,
  .serve 1 .done, .serve 1 .done, .deliver 1, .deliver 1, .deliver 1, .client (.resume 2)]

example : (GuardedRuns.follow World.step reconnection
    (started singlePort SerialClient.desktopUser)).map (fun world => world.client.readySocket) =
      some (some 1) := by
  decide +kernel

theorem ready_ports_stay_subscribed_reconnected :
    ∃ world, GuardedRuns.follow World.step reconnection
        (started singlePort SerialClient.desktopUser) = some world ∧
      world.client.readySocket = some 1 ∧ world.Subscribed := by
  have hcalm : GuardedRuns.Admitted World.step (fun happening world => world.Calm happening)
      reconnection (started singlePort SerialClient.desktopUser) := by
    decide
  have hrun : (GuardedRuns.follow World.step reconnection
      (started singlePort SerialClient.desktopUser)).map (fun world => world.client.readySocket) =
        some (some 1) := by
    decide +kernel
  obtain ⟨world, hworld, hready⟩ := Option.map_eq_some_iff.mp hrun
  have hreached := (GuardedRuns.reaches_of_follow hcalm hworld).mono fun hcalm => hcalm.smooth
  exact ⟨world, hworld, hready, ready_ports_stay_subscribed hreached⟩

/-- After so many events which the forwarder has not received -/
def backlog (unread : ℕ) : World :=
  (started singlePort SerialClient.desktopUser).setConnection 0 {
    (started singlePort SerialClient.desktopUser).connection 0 with
    subscriptions := [⟨"COM1", unread, .running⟩] }

theorem step_backlog (unread : ℕ) :
    World.step (.emit "COM1") (backlog unread) = some (backlog (unread + 1)) := by
  simp only [World.step, Option.some.injEq, backlog, setConnection, World.mk.injEq, true_and,
    and_true]
  funext socket
  by_cases hzero : socket = 0
  · rw [hzero, Function.update_self, Function.update_self]
    rfl
  · rw [Function.update_of_ne hzero, Function.update_of_ne hzero]
    simp [started, hzero, Connection.new, Connection.emit]

theorem reaches_backlog (unread : ℕ) : GuardedRuns.Reaches World.step (fun _ _ => True)
    (started singlePort SerialClient.desktopUser) (backlog unread) := by
  induction unread with
  | zero =>
      have hstarted : backlog 0 = started singlePort SerialClient.desktopUser := by
        simp only [backlog, setConnection]
        rw [Function.update_eq_self_iff.mpr]
        rfl
      rw [hstarted]
      exact .refl
  | succ unread ih => exact ih.tail trivial (step_backlog unread)

/-- The receiver of the forwarder lags behind by more than its queue holds.  The client only
reports the loss, and the port stays without a forwarder. -/
theorem lagging_forwarder_leaves_port_unsubscribed :
    ¬∀ world, GuardedRuns.Reaches World.step (fun _ _ => True)
      (started singlePort SerialClient.desktopUser) world → world.Subscribed := by
  intro hsubscribed
  have hrun : (GuardedRuns.follow World.step [.forward 0 "COM1" .timeline, .deliver 0]
      (backlog (broadcastQueue + 1))).map
        (fun world => (world.client.readySocket, world.connection 0)) =
      some (some 0, {
        Connection.new with
        sent := [.attach 0 ["COM1"]]
        read := 1
        greeted := true
        subscriptions := [⟨"COM1", broadcastQueue + 1, .ended⟩] }) := by
    decide
  obtain ⟨world, hworld, hfacts⟩ := Option.map_eq_some_iff.mp hrun
  simp only [Prod.mk.injEq] at hfacts
  obtain ⟨hready, hconnection⟩ := hfacts
  have hreached := (reaches_backlog (broadcastQueue + 1)).trans (GuardedRuns.reaches_any hworld)
  have hruns := hsubscribed world hreached 0 hready
  rw [hconnection] at hruns
  obtain ⟨subscription, hmem, _, hstate⟩ := hruns rfl rfl 0 ["COM1"] (by simp) "COM1" (by simp)
  rw [List.mem_singleton.mp hmem] at hstate
  simp at hstate

end World

end SerialPlatform.Desktop
