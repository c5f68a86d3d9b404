import SerialPlatform.JsonText
import SerialPlatform.TextFields

/-!
# Issued actors

The daemon names the actor of every connection.  The name begins with the kind of
the actor, so it tells the kinds apart.
-/

namespace SerialPlatform

def actorPrefix : ActorKind → String
  | .human => "human"
  | .agent => "agent"
  | .script => "script"
  | .system => "system"

/-- `str::trim`. -/
def trimText (text : String) : String :=
  let leading := text.toList.dropWhile isWhitespaceChar
  String.ofList (leading.reverse.dropWhile isWhitespaceChar).reverse

/-- The actor of a connection, under a fresh UUID. -/
def issueActor (kind : ActorKind) (requestedLabel : String) (fresh : Uuid) :
    Except String Actor :=
  if kind = .system then
    .error "the system actor kind is reserved for seriald"
  else
    let label := trimText requestedLabel
    if label.isEmpty ∨ 128 < label.utf8ByteSize ∨ label.toList.any isControlChar then
      .error "actor label must contain 1-128 non-control UTF-8 bytes"
    else
      .ok {
        id := actorPrefix kind ++ ":" ++ String.ofList (uuidDigits fresh)
        label := label
        kind := kind }

/-- The daemon named the actor. -/
def Actor.Issued (actor : Actor) : Prop :=
  ∃ kind requestedLabel fresh, issueActor kind requestedLabel fresh = .ok actor

theorem issueActor_ok {kind : ActorKind} {requestedLabel : String} {fresh : Uuid}
    {actor : Actor} (h : issueActor kind requestedLabel fresh = .ok actor) :
    actor.kind = kind ∧ kind ≠ .system ∧
      actor.id = actorPrefix kind ++ ":" ++ String.ofList (uuidDigits fresh) := by
  unfold issueActor at h
  by_cases hsystem : kind = .system
  · rw [if_pos hsystem] at h
    cases h
  · rw [if_neg hsystem] at h
    simp only at h
    split at h
    · cases h
    · obtain rfl := Except.ok.inj h
      exact ⟨rfl, hsystem, rfl⟩

theorem actorPrefix_head {kind kind' : ActorKind} (hkind : kind ≠ .system)
    (hkind' : kind' ≠ .system)
    (h : (actorPrefix kind).toList.head? = (actorPrefix kind').toList.head?) :
    kind = kind' := by
  cases kind <;> cases kind' <;> first | rfl | contradiction

/-- An id belongs to actors of one kind. -/
theorem Actor.Issued.kind_eq {a b : Actor} (ha : a.Issued) (hb : b.Issued)
    (h : a.id = b.id) : a.kind = b.kind := by
  obtain ⟨kind, label, fresh, ha⟩ := ha
  obtain ⟨kind', label', fresh', hb⟩ := hb
  obtain ⟨hkind, hsystem, hid⟩ := issueActor_ok ha
  obtain ⟨hkind', hsystem', hid'⟩ := issueActor_ok hb
  have hhead : ∀ (kind : ActorKind) (fresh : Uuid),
      (actorPrefix kind ++ ":" ++ String.ofList (uuidDigits fresh)).toList.head? =
        (actorPrefix kind).toList.head? := by
    intro kind fresh
    cases kind <;> simp [actorPrefix]
  rw [hkind, hkind']
  refine actorPrefix_head hsystem hsystem' ?_
  rw [← hhead kind fresh, ← hhead kind' fresh', ← hid, ← hid', h]

end SerialPlatform
