import SerialPlatform.ConsoleWrites

/-!
# The queue of one port

What the write queue, the progress record, the outstanding Writes and the outbound channel of
a port have to do with each other.
-/

namespace SerialPlatform.Console

/-! ## Operations -/

/-- The operations lie one behind the other in the queue, and the first one is not shorter than
the chunks of one key at the front. -/
structure Tiles (queue : List PendingWrite) (operations : List QueuedLineOperation) : Prop where
  inside : ∀ operation ∈ operations,
    operation.start < operation.stop ∧ operation.stop ≤ queue.length
  keys : ∀ operation ∈ operations, ∀ i chunk, operation.start ≤ i → i < operation.stop →
    queue[i]? = some chunk → chunk.key = (operation.operationId, operation.kind)
  ordered : operations.Pairwise fun a b => a.stop ≤ b.start
  last : ∀ operation, operations.getLast? = some operation → operation.stop = queue.length
  covers : queue ≠ [] → operations ≠ []
  first : ∀ operation rest, operations = operation :: rest → ∀ i key, i < queue.length →
    (∀ j chunk, j ≤ i → queue[j]? = some chunk → chunk.key = key) → i < operation.stop

section

variable {queue : List PendingWrite} {operations front : List QueuedLineOperation}
  {operation : QueuedLineOperation} {write : PendingWrite}

theorem queuedLineOperations_snoc (queue : List PendingWrite) (write : PendingWrite) :
    queuedLineOperations (queue ++ [write]) =
      extendOperations (queuedLineOperations queue) write queue.length := by
  simp [queuedLineOperations, List.zipIdx_append]

theorem getElem?_snoc_of_lt {i : ℕ} (h : i < queue.length) :
    (queue ++ [write])[i]? = queue[i]? := List.getElem?_append_left h

/-- A chunk with the key of the last operation makes it longer. -/
theorem Tiles.extend (h : Tiles queue (front ++ [operation]))
    (hkey : write.key = (operation.operationId, operation.kind)) (data : Bytes) :
    Tiles (queue ++ [write])
      (front ++ [{ operation with stop := operation.stop + 1, data := data }]) := by
  have hstop : operation.stop = queue.length := h.last operation (by simp)
  have hinside := h.inside operation (by simp)
  obtain ⟨hfront, -, hbefore⟩ := List.pairwise_append.1 h.ordered
  refine ⟨?_, ?_, ?_, ?_, by simp, ?_⟩
  · intro other hother
    rcases List.mem_append.1 hother with hold | hnew
    · have hole := h.inside other (List.mem_append_left _ hold)
      rw [List.length_append]
      exact ⟨hole.1, by omega⟩
    · rw [List.mem_singleton.1 hnew]
      simp only [List.length_append, List.length_singleton]
      omega
  · intro other hother i chunk hstart hlt hchunk
    rcases List.mem_append.1 hother with hold | hnew
    · have hole := h.inside other (List.mem_append_left _ hold)
      rw [getElem?_snoc_of_lt (by omega)] at hchunk
      exact h.keys other (List.mem_append_left _ hold) i chunk hstart hlt hchunk
    · rw [List.mem_singleton.1 hnew] at hstart hlt ⊢
      by_cases hi : i < queue.length
      · rw [getElem?_snoc_of_lt hi] at hchunk
        exact h.keys operation (by simp) i chunk hstart (by omega) hchunk
      · have heq : i = queue.length := by
          simp only at hlt
          omega
        subst heq
        rw [List.getElem?_concat_length] at hchunk
        rw [← Option.some.inj hchunk]
        exact hkey
  · rw [List.pairwise_append]
    exact ⟨hfront, List.pairwise_singleton _ _, fun a ha b hb => by
      rw [List.mem_singleton.1 hb]
      exact hbefore a ha operation List.mem_cons_self⟩
  · intro other hother
    rw [List.getLast?_concat] at hother
    rw [← Option.some.inj hother]
    simp [hstop]
  · intro lead rest heq i key hi hsame
    rw [List.length_append, List.length_singleton] at hi
    cases front with
    | nil =>
        obtain ⟨rfl, -⟩ := List.cons.inj heq
        simp only
        omega
    | cons first others =>
        obtain ⟨rfl, -⟩ := List.cons.inj heq
        have hlead := h.inside first (by simp)
        have hle := hbefore first (by simp) operation (by simp)
        refine h.first first _ rfl i key ?_ fun j chunk hj hchunk => ?_
        · by_contra hnot
          -- the first operation would reach the last one
          have hreach := h.first first _ rfl (queue.length - 1) key (by omega)
            fun j chunk hj hchunk => hsame j chunk (by omega) (by
              rw [getElem?_snoc_of_lt (by omega)]
              exact hchunk)
          omega
        · refine hsame j chunk hj ?_
          rw [List.getElem?_append_left (List.getElem?_eq_some_iff.1 hchunk).1]
          exact hchunk

/-- A chunk with another key begins an operation. -/
theorem Tiles.begin (h : Tiles queue operations)
    (hkey : ∀ operation, operations.getLast? = some operation →
      write.key ≠ (operation.operationId, operation.kind)) :
    Tiles (queue ++ [write]) (operations ++
      [⟨write.operationId, write.kind, queue.length, queue.length + 1, write.data⟩]) := by
  refine ⟨?_, ?_, ?_, ?_, by simp, ?_⟩
  · intro other hother
    rcases List.mem_append.1 hother with hold | hnew
    · have hole := h.inside other hold
      rw [List.length_append]
      exact ⟨hole.1, by omega⟩
    · rw [List.mem_singleton.1 hnew]
      simp
  · intro other hother i chunk hstart hlt hchunk
    rcases List.mem_append.1 hother with hold | hnew
    · have hole := h.inside other hold
      rw [getElem?_snoc_of_lt (by omega)] at hchunk
      exact h.keys other hold i chunk hstart hlt hchunk
    · rw [List.mem_singleton.1 hnew] at hstart hlt ⊢
      have heq : i = queue.length := by
        simp only at hlt hstart
        omega
      subst heq
      rw [List.getElem?_concat_length] at hchunk
      rw [← Option.some.inj hchunk]
      rfl
  · rw [List.pairwise_append]
    refine ⟨h.ordered, List.pairwise_singleton _ _, fun a ha b hb => ?_⟩
    rw [List.mem_singleton.1 hb]
    exact (h.inside a ha).2
  · intro other hother
    rw [List.getLast?_concat] at hother
    rw [← Option.some.inj hother]
    simp
  · intro lead rest heq i key hi hsame
    rw [List.length_append, List.length_singleton] at hi
    cases operations with
    | nil =>
        obtain ⟨rfl, -⟩ := List.cons.inj heq
        exact hi
    | cons first others =>
        obtain ⟨rfl, -⟩ := List.cons.inj heq
        have hlead := h.inside first List.mem_cons_self
        refine h.first first _ rfl i key ?_ fun j chunk hj hchunk => ?_
        · by_contra hnot
          have hreach := h.first first _ rfl (queue.length - 1) key (by omega)
            fun j chunk hj hchunk => hsame j chunk (by omega) (by
              rw [getElem?_snoc_of_lt (by omega)]
              exact hchunk)
          -- then the first operation is the last one, and has the key of the chunk
          have hend : first.stop = queue.length := by omega
          have hsingle : others = [] := by
            rw [List.eq_nil_iff_forall_not_mem]
            intro other hother
            have hle := (List.pairwise_cons.1 h.ordered).1 other hother
            have hole := h.inside other (List.mem_cons_of_mem _ hother)
            omega
          subst hsingle
          obtain ⟨chunk, hchunk⟩ : ∃ chunk, queue[first.start]? = some chunk :=
            ⟨_, List.getElem?_eq_getElem (by omega)⟩
          have hone := h.keys first List.mem_cons_self first.start chunk (le_refl _) hlead.1 hchunk
          have htwo := hsame first.start chunk (by omega) (by
            rw [getElem?_snoc_of_lt (by omega)]
            exact hchunk)
          have hthree := hsame queue.length write (by omega) List.getElem?_concat_length
          exact hkey first rfl (by rw [hthree, ← htwo, hone])
        · refine hsame j chunk hj ?_
          rw [List.getElem?_append_left (List.getElem?_eq_some_iff.1 hchunk).1]
          exact hchunk

theorem tiles_queuedLineOperations (queue : List PendingWrite) :
    Tiles queue (queuedLineOperations queue) := by
  induction queue using List.reverseRecOn with
  | nil =>
      have hnil : queuedLineOperations [] = [] := rfl
      rw [hnil]
      exact ⟨by simp, by simp, List.Pairwise.nil, by simp, by simp, by simp⟩
  | append_singleton queue write ih =>
      have hline : write.kind.isLine = true := by cases write.kind <;> rfl
      rw [queuedLineOperations_snoc, extendOperations, if_neg (by simp [hline])]
      split
      next operation hlast =>
        have hstop := ih.last operation hlast
        split_ifs with hsame
        · have hsplit := List.dropLast_append_getLast? operation hlast
          rw [← hsplit] at ih
          exact ih.extend (Prod.ext hsame.2.1.symm hsame.2.2.symm) _
        · refine ih.begin fun other hother hkey => hsame ⟨hstop, ?_⟩
          obtain rfl := Option.some.inj (hlast.symm.trans hother)
          obtain ⟨hid, hkind⟩ := Prod.mk.inj hkey
          exact ⟨hid.symm, hkind.symm⟩
      next hnone =>
        exact ih.begin fun other hother => by
          rw [hnone] at hother
          cases hother

end

/-! ## One port -/

/-- The queue of a port, its progress, the operations of its Writes under way, and the places of
the chunks that were put on the channel. -/
structure PortWrites where
  queue : List PendingWrite
  progress : Option InFlightWrite
  writing : List (Option Uuid)
  sent : List ℕ

namespace PortWrites

/-- The progress is at a chunk of the first operation: the chunks before it were sent, it was
itself when a Write is under way, and those behind it were not. -/
structure Goes (w : PortWrites) (progress : InFlightWrite) : Prop where
  inside : progress.chunkIndex < w.queue.length
  same : ∀ i chunk, i ≤ progress.chunkIndex → w.queue[i]? = some chunk → chunk.key = progress.key
  done : ∀ i chunk, i < progress.chunkIndex + w.writing.length → w.queue[i]? = some chunk →
    chunk.place ∈ w.sent
  ahead : ∀ i chunk, progress.chunkIndex + w.writing.length ≤ i → w.queue[i]? = some chunk →
    ∀ place ∈ w.sent, place < chunk.place
  begun : w.writing = [] → 1 ≤ progress.chunkIndex
  operation : ∀ operationId ∈ w.writing, operationId = progress.operationId

/-- Places are below the next one, and rise in the queue and on the channel. -/
structure Sound (next : ℕ) (w : PortWrites) : Prop where
  rising : w.queue.Pairwise fun a b => a.place < b.place
  below : ∀ chunk ∈ w.queue, chunk.place < next
  sentRising : w.sent.Pairwise (· < ·)
  sentBelow : ∀ place ∈ w.sent, place < next
  single : w.writing.length ≤ 1
  waits : w.progress = none → ∀ chunk ∈ w.queue, ∀ place ∈ w.sent, place < chunk.place
  goes : ∀ progress, w.progress = some progress → w.Goes progress

/-- The chunk that a flush sends. -/
def next (w : PortWrites) : Option (InFlightWrite × PendingWrite) := do
  let progress ← w.progress.orElse fun _ =>
    w.queue.head?.map fun write => ⟨write.operationId, write.kind, 0⟩
  let write ← (w.queue[progress.chunkIndex]?).filter fun write =>
    write.operationId = progress.operationId ∧ write.kind = progress.kind
  return (progress, write)

/-- The first chunk of the queue that was not sent. -/
def IsNext (w : PortWrites) (chunk : PendingWrite) : Prop :=
  ∃ before after, w.queue = before ++ chunk :: after ∧
    (∀ other ∈ before, other.place ∈ w.sent) ∧ chunk.place ∉ w.sent ∧
    ∀ other ∈ after, other.place ∉ w.sent

section

variable {next more : ℕ} {w : PortWrites} {progress : InFlightWrite} {chunk : PendingWrite}

theorem next_eq_some_iff : w.next = some (progress, chunk) ↔
    (w.progress = some progress ∨ w.progress = none ∧ ∃ first, w.queue.head? = some first ∧
      progress = ⟨first.operationId, first.kind, 0⟩) ∧
    w.queue[progress.chunkIndex]? = some chunk ∧ chunk.key = progress.key := by
  unfold PortWrites.next
  simp only [bind, pure, Option.bind_eq_some_iff, Option.filter_eq_some_iff, Option.some.injEq,
    Prod.mk.injEq, decide_eq_true_eq]
  constructor
  · rintro ⟨found, hfound, write, ⟨hwrite, hid, hkind⟩, rfl, rfl⟩
    refine ⟨?_, hwrite, Prod.ext hid hkind⟩
    cases hprogress : w.progress with
    | some old =>
        rw [hprogress] at hfound
        exact .inl hfound
    | none =>
        rw [hprogress] at hfound
        obtain ⟨first, hfirst, heq⟩ := Option.map_eq_some_iff.1 hfound
        exact .inr ⟨rfl, first, hfirst, heq.symm⟩
  · rintro ⟨hprogress, hchunk, hkey⟩
    obtain ⟨hid, hkind⟩ := Prod.mk.inj hkey
    refine ⟨progress, ?_, chunk, ⟨hchunk, hid, hkind⟩, rfl, rfl⟩
    rcases hprogress with hsome | ⟨hnone, first, hfirst, rfl⟩
    · rw [hsome]
      rfl
    · rw [hnone, hfirst]
      rfl

theorem Sound.later (h : w.Sound next) (hle : next ≤ more) : w.Sound more :=
  { h with
    below := fun chunk hchunk => (h.below chunk hchunk).trans_le hle
    sentBelow := fun place hplace => (h.sentBelow place hplace).trans_le hle }

/-- Without a Write under way a flush of a queue sends its next chunk. -/
theorem Sound.exists_next (h : w.Sound next) (hidle : w.writing = []) (hqueue : w.queue ≠ []) :
    ∃ progress chunk, w.next = some (progress, chunk) ∧ w.IsNext chunk := by
  cases hprogress : w.progress with
  | none =>
      obtain ⟨first, rest, hsplit⟩ := List.exists_cons_of_ne_nil hqueue
      have hunsent : ∀ chunk ∈ w.queue, chunk.place ∉ w.sent := fun chunk hchunk hmem =>
        absurd (h.waits hprogress chunk hchunk _ hmem) (lt_irrefl _)
      refine ⟨⟨first.operationId, first.kind, 0⟩, first,
        next_eq_some_iff.2 ⟨.inr ⟨hprogress, first, by rw [hsplit]; rfl, rfl⟩, by rw [hsplit]; rfl,
          rfl⟩, [], rest, hsplit, by simp, hunsent first (by simp [hsplit]), fun other hother => ?_⟩
      exact hunsent other (by simp [hsplit, hother])
  | some progress =>
      have hgoes := h.goes progress hprogress
      have hchunk := List.getElem?_eq_getElem hgoes.inside
      have hkey := hgoes.same _ _ (le_refl _) hchunk
      have hnone : ∀ i other, progress.chunkIndex ≤ i → w.queue[i]? = some other →
          other.place ∉ w.sent := by
        intro i other hi hother hmem
        exact absurd (hgoes.ahead i other (by simpa [hidle] using hi) hother _ hmem) (lt_irrefl _)
      refine ⟨progress, _, next_eq_some_iff.2 ⟨.inl hprogress, hchunk, hkey⟩,
        w.queue.take progress.chunkIndex, w.queue.drop (progress.chunkIndex + 1), ?_, ?_,
        hnone _ _ (le_refl _) hchunk, ?_⟩
      · rw [List.getElem_cons_drop, List.take_append_drop]
      · intro other hother
        obtain ⟨i, hi, rfl⟩ := List.getElem_of_mem hother
        rw [List.length_take] at hi
        rw [List.getElem_take]
        exact hgoes.done i _ (by omega) (List.getElem?_eq_getElem (by omega))
      · intro other hother
        obtain ⟨i, hi, rfl⟩ := List.getElem_of_mem hother
        rw [List.length_drop] at hi
        rw [List.getElem_drop]
        exact hnone (progress.chunkIndex + 1 + i) _ (by omega)
          (List.getElem?_eq_getElem (by omega))

/-- The chunk is sent. -/
def send (w : PortWrites) (progress : InFlightWrite) (chunk : PendingWrite) : PortWrites where
  queue := w.queue
  progress := some progress
  writing := w.writing ++ [chunk.operationId]
  sent := w.sent ++ [chunk.place]

theorem Sound.send (h : w.Sound next) (hidle : w.writing = [])
    (hnext : w.next = some (progress, chunk)) : (w.send progress chunk).Sound next := by
  obtain ⟨hprogress, hchunk, hkey⟩ := next_eq_some_iff.1 hnext
  have hmem : chunk ∈ w.queue := List.mem_of_getElem? hchunk
  -- whether the record is old or new, it is at the first chunk that was not sent
  have hold : (∀ i other, i ≤ progress.chunkIndex → w.queue[i]? = some other →
        other.key = progress.key) ∧
      (∀ i other, i < progress.chunkIndex → w.queue[i]? = some other → other.place ∈ w.sent) ∧
      ∀ i other, progress.chunkIndex ≤ i → w.queue[i]? = some other →
        ∀ place ∈ w.sent, place < other.place := by
    rcases hprogress with hsome | ⟨hnone, first, hfirst, rfl⟩
    · have hgoes := h.goes progress hsome
      refine ⟨hgoes.same, fun i other hi => ?_, fun i other hi => ?_⟩
      · exact hgoes.done i other (by simpa [hidle] using hi)
      · exact hgoes.ahead i other (by simpa [hidle] using hi)
    · refine ⟨fun i other hi hother => ?_, fun i other hi => absurd hi (Nat.not_lt_zero i),
        fun i other _ hother => h.waits hnone other (List.mem_of_getElem? hother)⟩
      have hzero : i = 0 := Nat.le_zero.1 hi
      rw [hzero] at hother
      obtain rfl := Option.some.inj (hother.symm.trans hchunk)
      exact hkey
  obtain ⟨hsame, hdone, hahead⟩ := hold
  have hbigger := hahead _ chunk (le_refl _) hchunk
  have hrises : ∀ i other, progress.chunkIndex < i → w.queue[i]? = some other →
      chunk.place < other.place := by
    intro i other hi hother
    obtain ⟨hbound, rfl⟩ := List.getElem?_eq_some_iff.1 hother
    obtain ⟨hbound', rfl⟩ := List.getElem?_eq_some_iff.1 hchunk
    exact List.pairwise_iff_getElem.1 h.rising progress.chunkIndex i hbound' hbound hi
  refine ⟨h.rising, h.below, ?_, ?_, ?_, ?_, ?_⟩
  · exact List.pairwise_append.2 ⟨h.sentRising, List.pairwise_singleton _ _, fun place hplace b hb => by
      rw [List.mem_singleton.1 hb]
      exact hbigger place hplace⟩
  · intro place hplace
    rcases List.mem_append.1 hplace with hold | hnew
    · exact h.sentBelow place hold
    · rw [List.mem_singleton.1 hnew]
      exact h.below chunk hmem
  · simp [PortWrites.send, hidle]
  · intro hnone
    cases hnone
  · intro found hfound
    cases hfound
    refine ⟨(List.getElem?_eq_some_iff.1 hchunk).1, hsame, ?_, ?_, ?_, ?_⟩
    · intro i other hi hother
      have hi : i < progress.chunkIndex + 1 := by simpa [PortWrites.send, hidle] using hi
      rcases Nat.lt_succ_iff_lt_or_eq.1 hi with hlt | rfl
      · exact List.mem_append_left _ (hdone i other hlt hother)
      · obtain rfl := Option.some.inj (hother.symm.trans hchunk)
        exact List.mem_append_right _ List.mem_cons_self
    · intro i other hi hother place hplace
      have hi : progress.chunkIndex + 1 ≤ i := by simpa [PortWrites.send, hidle] using hi
      rcases List.mem_append.1 hplace with hold | hnew
      · exact hahead i other (by omega) hother place hold
      · rw [List.mem_singleton.1 hnew]
        exact hrises i other (by omega) hother
    · intro hnil
      simp [PortWrites.send] at hnil
    · intro operationId hoperation
      simp only [PortWrites.send, hidle, List.nil_append, List.mem_singleton] at hoperation
      rw [hoperation]
      exact (Prod.mk.inj hkey).1

/-- Chunks are queued. -/
def push (w : PortWrites) (chunks : List PendingWrite) : PortWrites :=
  { w with queue := w.queue ++ chunks }

theorem Sound.push (h : w.Sound next) {chunks : List PendingWrite} (hle : next ≤ more)
    (hrising : chunks.Pairwise fun a b => a.place < b.place)
    (hbounds : ∀ chunk ∈ chunks, next ≤ chunk.place ∧ chunk.place < more) :
    (w.push chunks).Sound more := by
  refine ⟨?_, ?_, h.sentRising, (h.later hle).sentBelow, h.single, ?_, ?_⟩
  · refine List.pairwise_append.2 ⟨h.rising, hrising, fun a ha b hb => ?_⟩
    exact (h.below a ha).trans_le (hbounds b hb).1
  · intro chunk hchunk
    rcases List.mem_append.1 hchunk with hold | hnew
    · exact (h.below chunk hold).trans_le hle
    · exact (hbounds chunk hnew).2
  · intro hnone chunk hchunk place hplace
    rcases List.mem_append.1 hchunk with hold | hnew
    · exact h.waits hnone chunk hold place hplace
    · exact (h.sentBelow place hplace).trans_le (hbounds chunk hnew).1
  · intro progress hprogress
    have hgoes := h.goes progress hprogress
    have hlength : progress.chunkIndex + w.writing.length ≤ w.queue.length := by
      have hinside := hgoes.inside
      have hsingle := h.single
      omega
    refine ⟨?_, ?_, ?_, ?_, hgoes.begun, hgoes.operation⟩
    · have hinside := hgoes.inside
      simp only [PortWrites.push, List.length_append]
      omega
    · intro i chunk hi hchunk
      refine hgoes.same i chunk hi ?_
      rwa [PortWrites.push, List.getElem?_append_left (hi.trans_lt hgoes.inside)] at hchunk
    · intro i chunk hi hchunk
      refine hgoes.done i chunk hi ?_
      rwa [PortWrites.push, List.getElem?_append_left (hi.trans_le hlength)] at hchunk
    · intro i chunk hi hchunk place hplace
      rcases List.mem_append.1 (List.mem_of_getElem? hchunk) with hold | hnew
      · by_cases hlt : i < w.queue.length
        · rw [PortWrites.push, List.getElem?_append_left hlt] at hchunk
          exact hgoes.ahead i chunk hi hchunk place hplace
        · rw [PortWrites.push, List.getElem?_append_right (not_lt.1 hlt)] at hchunk
          have hnew := List.mem_of_getElem? hchunk
          exact (h.sentBelow place hplace).trans_le (hbounds chunk hnew).1
      · exact (h.sentBelow place hplace).trans_le (hbounds chunk hnew).1

/-- Chunks are taken out of the queue. -/
def remove (w : PortWrites) (start stop : ℕ) : PortWrites :=
  { w with queue := w.queue.take start ++ w.queue.drop stop }

theorem remove_sublist (queue : List PendingWrite) {start stop : ℕ} (h : start ≤ stop) :
    (queue.take start ++ queue.drop stop).Sublist queue := by
  conv_rhs => rw [← List.take_append_drop start queue]
  refine List.Sublist.append (List.Sublist.refl _) ?_
  have hsplit : queue.drop stop = (queue.drop start).drop (stop - start) := by
    rw [List.drop_drop]
    congr 1
    omega
  rw [hsplit]
  exact List.drop_sublist _ _

theorem getElem?_remove {queue : List PendingWrite} {start stop i : ℕ} (h : start ≤ stop)
    (hstart : start ≤ queue.length) :
    (queue.take start ++ queue.drop stop)[i]? =
      if i < start then queue[i]? else queue[i + (stop - start)]? := by
  have hlength : (queue.take start).length = start := by simp [hstart]
  split_ifs with hi
  · rw [List.getElem?_append_left (by omega), List.getElem?_take_of_lt hi]
  · rw [List.getElem?_append_right (by omega), hlength, List.getElem?_drop]
    congr 1
    omega

/-- Chunks behind the progress may be taken. -/
theorem Sound.remove (h : w.Sound next) {start stop : ℕ} (hle : start ≤ stop)
    (hlength : start ≤ w.queue.length)
    (hbehind : ∀ progress, w.progress = some progress → progress.chunkIndex < start) :
    (w.remove start stop).Sound next := by
  have hsublist := remove_sublist w.queue hle
  refine ⟨h.rising.sublist hsublist, fun chunk hchunk => h.below chunk (hsublist.subset hchunk),
    h.sentRising, h.sentBelow, h.single,
    fun hnone chunk hchunk => h.waits hnone chunk (hsublist.subset hchunk), ?_⟩
  intro progress hprogress
  have hgoes := h.goes progress hprogress
  have hlt := hbehind progress hprogress
  have hsingle := h.single
  refine ⟨?_, ?_, ?_, ?_, hgoes.begun, hgoes.operation⟩
  · simp only [PortWrites.remove, List.length_append, List.length_take]
    omega
  · intro i chunk hi hchunk
    rw [PortWrites.remove, getElem?_remove hle hlength, if_pos (by omega)] at hchunk
    exact hgoes.same i chunk hi hchunk
  · intro i chunk hi hchunk
    change i < progress.chunkIndex + w.writing.length at hi
    rw [PortWrites.remove, getElem?_remove hle hlength, if_pos (by omega)] at hchunk
    exact hgoes.done i chunk hi hchunk
  · intro i chunk hi hchunk
    change progress.chunkIndex + w.writing.length ≤ i at hi
    rw [PortWrites.remove, getElem?_remove hle hlength] at hchunk
    split_ifs at hchunk with hfront
    · exact hgoes.ahead i chunk hi hchunk
    · exact hgoes.ahead _ chunk (by omega) hchunk

/-- What is removed behind the progress was not sent. -/
theorem Sound.removed_unsent (h : w.Sound next) {start stop : ℕ}
    (hbehind : ∀ progress, w.progress = some progress → progress.chunkIndex < start)
    {chunk : PendingWrite} (hchunk : chunk ∈ (w.queue.take stop).drop start) :
    chunk.place ∉ w.sent := by
  intro hmem
  obtain ⟨i, hi⟩ := List.getElem?_of_mem hchunk
  rw [List.getElem?_drop] at hi
  have hlt : start + i < stop := by
    by_contra hnot
    rw [List.getElem?_eq_none (by simp; omega)] at hi
    cases hi
  rw [List.getElem?_take_of_lt hlt] at hi
  cases hprogress : w.progress with
  | none => exact absurd (h.waits hprogress chunk (List.mem_of_getElem? hi) _ hmem) (lt_irrefl _)
  | some progress =>
      have hgoes := h.goes progress hprogress
      have hbegin := hbehind progress hprogress
      have hsingle := h.single
      exact absurd (hgoes.ahead (start + i) chunk (by omega) hi _ hmem) (lt_irrefl _)

/-- The queue and the progress are discarded. -/
def discard (w : PortWrites) : PortWrites := { w with queue := [], progress := none }

theorem Sound.discard (h : w.Sound next) : w.discard.Sound next :=
  ⟨List.Pairwise.nil, by simp [PortWrites.discard], h.sentRising, h.sentBelow, h.single,
    by simp [PortWrites.discard], by simp [PortWrites.discard]⟩

/-- A Write fails. -/
def fail (w : PortWrites) : PortWrites := { w.discard with writing := [] }

theorem Sound.fail (h : w.Sound next) : w.fail.Sound next :=
  { h.discard with
    single := Nat.zero_le 1
    goes := by simp [PortWrites.fail, PortWrites.discard] }

/-- The Write under way is acknowledged. -/
def acknowledge (w : PortWrites) : PortWrites :=
  match w.progress with
  | none => { w with writing := [] }
  | some progress =>
      if (w.queue[progress.chunkIndex + 1]?).any fun write =>
          write.operationId = progress.operationId ∧ write.kind = progress.kind then
        { w with
          progress := some { progress with chunkIndex := progress.chunkIndex + 1 }
          writing := [] }
      else { w with queue := w.queue.drop (progress.chunkIndex + 1), progress := none, writing := [] }

theorem Sound.acknowledge (h : w.Sound next) (hbusy : w.writing.length = 1) :
    w.acknowledge.Sound next := by
  unfold PortWrites.acknowledge
  split
  next hnone =>
    refine ⟨h.rising, h.below, h.sentRising, h.sentBelow, Nat.zero_le 1, fun _ => h.waits hnone, ?_⟩
    intro progress hsome
    exact absurd (hnone.symm.trans hsome) (by simp)
  next progress hprogress =>
    have hgoes := h.goes progress hprogress
    have hdone := hgoes.done
    have hahead := hgoes.ahead
    rw [hbusy] at hdone hahead
    split_ifs with hsame
    · -- the operation goes on with its next chunk
      have hfound : ∃ chunk, w.queue[progress.chunkIndex + 1]? = some chunk ∧
          chunk.key = progress.key := by
        cases hchunk : w.queue[progress.chunkIndex + 1]? with
        | none =>
            rw [hchunk] at hsame
            cases hsame
        | some chunk =>
            rw [hchunk, Option.any_some, decide_eq_true_eq] at hsame
            exact ⟨chunk, rfl, Prod.ext hsame.1 hsame.2⟩
      obtain ⟨chunk, hchunk, hkey⟩ := hfound
      refine ⟨h.rising, h.below, h.sentRising, h.sentBelow, Nat.zero_le 1, by simp, ?_⟩
      intro found hfound
      cases hfound
      refine ⟨(List.getElem?_eq_some_iff.1 hchunk).1, ?_, hdone, hahead,
        fun _ => Nat.succ_pos _, by simp⟩
      intro i other hi hother
      rcases Nat.le_succ_iff.1 hi with hle | rfl
      · exact hgoes.same i other hle hother
      · obtain rfl := Option.some.inj (hother.symm.trans hchunk)
        exact hkey
    · -- the operation is done, and its chunks leave the queue
      refine ⟨h.rising.sublist (List.drop_sublist _ _),
        fun chunk hchunk => h.below chunk (List.mem_of_mem_drop hchunk), h.sentRising, h.sentBelow,
        Nat.zero_le 1, ?_, by simp⟩
      intro _ chunk hchunk place hplace
      obtain ⟨i, hi⟩ := List.getElem?_of_mem hchunk
      rw [List.getElem?_drop] at hi
      exact hahead _ chunk (by omega) hi place hplace

end

end PortWrites

end SerialPlatform.Console
