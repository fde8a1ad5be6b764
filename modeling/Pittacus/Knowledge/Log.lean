import Pittacus.Basic.Fifo
import Pittacus.Proofs.Rings

/-! The data log is a bounded map that pushes out the originator inserted first. -/

namespace Pittacus

/-- A message that was logged, and whether its originator was inserted for it. -/
structure Logged where
  msg : MessageData
  inserted : Bool

/-- Logging a message as a step that shows whether its originator was absent. -/
def dataLogStep (msg : MessageData) : Routine DataLog Logged Unit := fun log =>
  ⟨(), gossipDataLog log msg, [⟨msg, (log.latest msg.dataVersion.memberId).isNone⟩]⟩

namespace Logged

/-- The originators that were inserted, in the order of their insertions. -/
def insertions (history : List Logged) : List UInt64 :=
  (history.filter Logged.inserted).map fun logged => logged.msg.dataVersion.memberId

/-- The message last logged for an originator. -/
def last (history : List Logged) (originator : UInt64) : Option MessageData :=
  (history.reverse.find? fun logged => logged.msg.dataVersion.memberId = originator).map
    Logged.msg

end Logged

/-- The records in use, oldest insertion first. -/
def DataLog.aged (log : DataLog) : List DataLogRecord := log.ring.aged

/-- A log that is a bounded first-in-first-out map of the messages given to it. -/
structure DataLog.Recalls (log : DataLog) (history : List Logged) : Prop where
  slots : log.messages.length = dataLogSize
  size_le : log.size ≤ dataLogSize
  distinct : (log.live.map DataLogRecord.originator).Nodup
  /-- The originators are those of the most recent insertions, in that order by age. -/
  recent : log.aged.Perm log.live ∧
    log.aged.map DataLogRecord.originator = (Logged.insertions history).rtake dataLogSize
  /-- Each record comes whole from the message last logged for its originator. -/
  latest : ∀ record ∈ log.live, ∃ msg, Logged.last history record.originator = some msg ∧
    record.version.sequenceNumber = msg.dataVersion.sequenceNumber ∧
    record.dataSize = msg.dataSize ∧ record.data.take record.dataSize.toNat = msg.data
  /-- No payload was copied past the end of its array. -/
  arrays : ∀ record ∈ log.messages, record.data.length = messageMaxSize

/-! ### One message -/

/-- What a record holds of the message it was written for. -/
structure Content where
  version : VectorRecord
  dataSize : UInt16
  data : List UInt8

/-- The originator of the message. -/
def Content.originator (content : Content) : UInt64 := content.version.memberId

/-- What a message leaves in a record. -/
def MessageData.content (msg : MessageData) : Content := ⟨msg.dataVersion, msg.dataSize, msg.data⟩

/-- What a record shows of its payload array is as much as its size says. -/
def DataLogRecord.content (record : DataLogRecord) : Content :=
  ⟨record.version, record.dataSize, record.data.take record.dataSize.toNat⟩

/-- A record written for a message shows that message, whatever the slot held before. -/
theorem logged_content (msg : MessageData) (record : DataLogRecord) :
    (record.logged msg).content = msg.content := by
  have data := logged_data msg record
  rw [DataLogRecord.content, MessageData.content, Content.mk.injEq]
  exact ⟨rfl, rfl, data⟩

/-- A payload that fits the array of a record leaves it as long as it was. -/
theorem logged_array {msg : MessageData} (fits : msg.data.length ≤ messageMaxSize)
    {record : DataLogRecord} (array : record.data.length = messageMaxSize) :
    (record.logged msg).data.length = messageMaxSize := by
  show (msg.data ++ record.data.drop msg.data.length).length = messageMaxSize
  rw [List.length_append, List.length_drop, array]
  exact Nat.add_sub_cancel' fits

/-! ### Runs -/

/-- A log in order that recalls the originators taken in and the messages given to it. -/
structure DataLog.Retains (log : DataLog) (taken : List UInt64) (given : List MessageData) :
    Prop where
  ok : log.Ok
  recalls : Fifo.Recalls dataLogSize Content.originator taken (given.map MessageData.content)
    (log.aged.map DataLogRecord.content)

/-- What was retained so far is retained together with the messages logged since. -/
def Retaining (before : DataLog) (events : List Logged) (after : DataLog) : Prop :=
  ∀ taken given, before.Retains taken given →
    after.Retains (taken ++ Logged.insertions events) (given ++ events.map Logged.msg)

theorem Logged.insertions_append (early late : List Logged) :
    insertions (early ++ late) = insertions early ++ insertions late := by
  simp [insertions]

theorem retaining_chains : Routine.Chains Retaining where
  rest log taken given kept := by simpa [Logged.insertions] using kept
  join first second taken given kept := by
    -- What the first stretch added is what the second one starts with.
    have later := second _ _ (first taken given kept)
    rwa [Logged.insertions_append, List.map_append, ← List.append_assoc, ← List.append_assoc]

theorem dataLogStep_retaining (msg : MessageData) : Routine.Meets Retaining (dataLogStep msg) := by
  intro log taken given kept
  refine ⟨kept.ok.log msg, ?_⟩
  have shown : ∀ held : DataLogRecord, held.content.originator = held.originator := fun _ => rfl
  have written : ∀ record : DataLogRecord,
      (record.logged msg).originator = msg.dataVersion.memberId := fun _ => rfl
  -- Both ways of writing a record leave all of the message in it, and nothing of another one.
  have next := SlotRing.Ok.recalls_put kept.ok shown written (logged_content msg) kept.recalls
  rw [← gossipDataLog_ring] at next
  have inserted : (if (log.latest msg.dataVersion.memberId).isNone
      then [msg.dataVersion.memberId] else []) =
      Logged.insertions (dataLogStep msg log).events := by
    simp only [dataLogStep, Logged.insertions, List.filter_cons, List.filter_nil]
    split
    · rfl
    · rfl
  rw [← inserted, List.map_append]
  exact next

/-- The content last given for an originator is that of the message last logged for it. -/
theorem last_of_find {history : List Logged} {content : Content}
    (found : ((history.map Logged.msg).map MessageData.content).reverse.find?
      (fun held => held.originator = content.originator) = some content) :
    ∃ msg, Logged.last history content.originator = some msg ∧ msg.content = content := by
  rw [List.map_map, ← List.map_reverse, List.find?_map] at found
  obtain ⟨logged, first, seen⟩ := Option.map_eq_some_iff.mp found
  refine ⟨logged.msg, ?_, seen⟩
  rw [Logged.last, Option.map_eq_some_iff]
  exact ⟨logged, first, rfl⟩

/-- The arrays of all records are as long as the longest payload. -/
def DataLog.Arrays (log : DataLog) : Prop :=
  ∀ record ∈ log.messages, record.data.length = messageMaxSize

/-- Logging a payload that fits copies it into the array of a record, and not past its end. -/
theorem DataLog.Arrays.log {log : DataLog} (arrays : log.Arrays) {msg : MessageData}
    (fits : msg.data.length ≤ messageMaxSize) : (gossipDataLog log msg).Arrays := by
  intro record stored
  have slot : record ∈ (gossipDataLog log msg).ring.slots := stored
  rw [gossipDataLog_ring] at slot
  rcases SlotRing.mem_slots_put slot with old | ⟨held, old, rfl⟩
  · exact arrays record old
  · exact logged_array fits (arrays held old)

/-- A log that retained what was logged is a bounded map of it. -/
theorem DataLog.Retains.recallsAll {log : DataLog} {history : List Logged}
    (kept : log.Retains (Logged.insertions history) (history.map Logged.msg))
    (arrays : log.Arrays) : log.Recalls history := by
  obtain ⟨ok, recalls⟩ := kept
  refine ⟨SlotRing.Ok.length ok, SlotRing.Ok.size_le ok, SlotRing.Ok.distinct ok,
    ⟨List.rotate_perm _ _, ?_⟩, fun record used => ?_, arrays⟩
  · rw [← recalls.keys, List.map_map]
    rfl
  · -- A record in use is one of the aged ones, which the history accounts for.
    have old : record.content ∈ log.aged.map DataLogRecord.content :=
      List.mem_map_of_mem (List.mem_rotate.mpr used)
    obtain ⟨msg, last, same⟩ := last_of_find (recalls.latest _ old)
    rw [MessageData.content, DataLogRecord.content, Content.mk.injEq] at same
    exact ⟨msg, last, congrArg VectorRecord.sequenceNumber same.1.symm, same.2.1.symm,
      same.2.2.symm⟩

/-- The history of a run names the messages that were logged, in order. -/
theorem trace_messages (messages : List MessageData) (log : DataLog) :
    (Machine.trace dataLogStep messages log).map Logged.msg = messages := by
  induction messages generalizing log with
  | nil => rfl
  | cons msg rest ih => exact congrArg (msg :: ·) (ih _)

/--
Whatever is logged into an empty log, the log is a bounded first-in-first-out map of it.

Memory may hold anything where the log will be; only the payload arrays are as long as they are.
-/
theorem dataLog_fifo (slots : List DataLogRecord) (length : slots.length = dataLogSize)
    (arrays : ∀ record ∈ slots, record.data.length = messageMaxSize) (messages : List MessageData)
    (fits : ∀ msg ∈ messages, msg.data.length ≤ messageMaxSize) :
    let history := Machine.trace dataLogStep messages ⟨slots, 0, 0⟩
    history.map Logged.msg = messages ∧
      (Machine.run dataLogStep messages ⟨slots, 0, 0⟩).Recalls history := by
  intro history
  have ok : DataLog.Ok ⟨slots, 0, 0⟩ := SlotRing.ok_empty length (by decide)
  -- Two invariants of the run: what the log retained, and the length of its arrays.
  have kept := Machine.run_meets retaining_chains dataLogStep_retaining messages
    ⟨slots, 0, 0⟩ [] [] ⟨ok, Fifo.recalls_nil _ _⟩
  have fitting : Machine.Along dataLogStep
      (fun _ msg => msg.data.length ≤ messageMaxSize) messages ⟨slots, 0, 0⟩ :=
    Machine.along_iff.mpr fun earlier msg later split =>
      fits msg (split ▸ List.mem_append_right _ List.mem_cons_self)
  have whole : (Machine.run dataLogStep messages ⟨slots, 0, 0⟩).Arrays :=
    Machine.run_invariant (fun _ _ arrays fits => arrays.log fits) arrays fitting
  exact ⟨trace_messages messages _, kept.recallsAll whole⟩

/-- Slots whose payload arrays are filled with zeros. -/
def zeroSlots : List DataLogRecord :=
  List.replicate dataLogSize ⟨⟨0, 0⟩, 0, List.replicate messageMaxSize 0⟩

/-- A data message of the given originator, number and payload. -/
def rumorOf (originator : UInt64) (sequenceNumber : UInt32) (payload : List UInt8)
    (bounded : payload.length < 2 ^ 16) : MessageData where
  header := messageHeaderInit messageDataType 1
  dataVersion := ⟨sequenceNumber, originator⟩
  data := payload
  bounded := bounded

/-- A payload is followed by one of another originator, and by a shorter one of its own. -/
theorem dataLog_fifo_three :
    let messages := [rumorOf 7 1 [1, 2, 3] (by decide), rumorOf 8 1 [] (by decide),
      rumorOf 7 2 [9] (by decide)]
    Logged.insertions (Machine.trace dataLogStep messages ⟨zeroSlots, 0, 0⟩) = [7, 8] ∧
      (Machine.run dataLogStep messages ⟨zeroSlots, 0, 0⟩).Recalls
        (Machine.trace dataLogStep messages ⟨zeroSlots, 0, 0⟩) := by
  refine ⟨by decide +kernel, (dataLog_fifo zeroSlots (by decide) ?_ _ (by decide)).2⟩
  -- The arrays of a log that was never written are all as long.
  intro record stored
  rw [List.eq_of_mem_replicate stored]
  exact List.length_replicate

end Pittacus
