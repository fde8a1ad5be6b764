import Mathlib.Data.Finset.Card
import Pittacus.AntiEntropy.Convergence
import Pittacus.Basic.Board
import Pittacus.Cluster.Integrity

/-! The nodes of a cluster behave like readers of a board on which each of them posts its payloads. -/

namespace Pittacus

/-! ### Taking over a message -/

/-- A message that is taken over is what is held for its originator, and nobody else is affected. -/
theorem Knowledge.learn_adopted {known : Knowledge} {originators : Finset UInt64} {news : News}
    (ok : known.Ok) (among : known.Among originators) (few : originators.card ≤ maxVectorSize)
    (admitted : known.Admits originators news) {msg : MessageData}
    (taken : known.adopted news = some msg) :
    (known.learn news).Has msg ∧ ∀ originator, originator ≠ msg.dataVersion.memberId →
      (known.learn news).AgreeOn known originator := by
  have inside := admitted msg taken
  have latest := among.latest_learn ok few admitted taken
  -- Clock and log have room for all the originators, so none is pushed out.
  have kept := among.log_forgets ok (Nat.le_trans few (by decide)) inside
  obtain ⟨slot, logged⟩ := ok.log.latest_log msg
  have log : (known.learn news).log = gossipDataLog known.log msg := by
    rw [learn_log, taken]
  refine ⟨⟨?_, slot.logged msg, ?_, rfl, logged_data msg slot⟩, fun originator apart => ⟨?_, ?_⟩⟩
  · rw [latest, if_pos rfl]
  · rw [log, logged, if_pos rfl]
  · rw [latest, if_neg apart]
  · rw [log, logged, if_neg apart, kept, if_neg (by simp)]

/-- News of which nothing is taken over leaves everything known as it was. -/
theorem Knowledge.learn_dropped {known : Knowledge} {news : News}
    (dropped : known.adopted news = none) : known.learn news = known := by
  cases news with
  | sent data => cases dropped
  | nothing => rfl
  | arrived msg =>
    rw [learn, dropped]
    rfl

/-- The version and the payload of a message that is had are held for its originator. -/
theorem Knowledge.Has.held {known : Knowledge} {msg : MessageData} (has : known.Has msg) :
    known.held msg.dataVersion.memberId = some (msg.dataVersion.sequenceNumber, msg.data) := by
  obtain ⟨record, found, version, data⟩ := has.logged
  rw [Knowledge.held, found, Option.map_some, version, data]

/-! ### A cluster and its board -/

variable {ι : Type}

/-- The payload a node sent as its payload of a number, as a replica holds it; none has number zero. -/
def Cluster.sentAs (cluster : Cluster ι) (i : ι) : Nat → Option (UInt32 × List UInt8)
  | 0 => none
  | number + 1 =>
    ((cluster.sent i)[number]?).map fun data => (UInt32.ofNat (number + 1), data)

/-- Every node holds of every other one the payload it saw last, in its clock and in its log. -/
structure Cluster.Shows (cluster : Cluster ι) (board : Board ι (List UInt8)) : Prop where
  posted : ∀ i, board.posted i = cluster.sent i
  clock : ∀ reader poster, (cluster.node reader).dataVersion.latest (cluster.memberId poster)
    = (cluster.sentAs poster (board.seen reader poster)).map Prod.fst
  log : ∀ reader poster, (cluster.node reader).knowledge.held (cluster.memberId poster)
    = cluster.sentAs poster (board.seen reader poster)

/-- What a node sees of another one, in terms of versions and payloads. -/
def shownAs (memberId : ι → UInt64) (sight : Board.Sight ι (List UInt8)) :
    ι × VectorRecord × List UInt8 :=
  (sight.reader, ⟨UInt32.ofNat sight.number, memberId sight.poster⟩, sight.item)

/-- What is spread to random members by an event, and by whom. -/
def rumorAt (event : ι × Event) : Option (ι × VectorRecord × List UInt8) :=
  event.2.asRumor.map fun msg => (event.1, msg.dataVersion, msg.data)

/-- What is handed to a data receiver by an event, and to whose. -/
def deliveryAt (event : ι × Event) : Option (ι × VectorRecord × List UInt8) :=
  event.2.asDelivery.map fun delivery => (event.1, delivery)

/--
Everything that is seen is passed on by whoever sees it.

If it is from another node, and there is a data receiver, it is also delivered.
-/
structure Reports [DecidableEq ι] (memberId : ι → UInt64) (receiving : ι → Bool)
    (sights : List (Board.Sight ι (List UInt8))) (events : List (ι × Event)) : Prop where
  rumors : events.filterMap rumorAt = sights.map (shownAs memberId)
  deliveries : events.filterMap deliveryAt =
    (sights.filter fun sight => sight.reader ≠ sight.poster ∧ receiving sight.reader).map
      (shownAs memberId)

variable [DecidableEq ι]

theorem Reports.append {memberId : ι → UInt64} {receiving : ι → Bool}
    {early late : List (Board.Sight ι (List UInt8))} {first second : List (ι × Event)}
    (left : Reports memberId receiving early first)
    (right : Reports memberId receiving late second) :
    Reports memberId receiving (early ++ late) (first ++ second) where
  rumors := by rw [List.filterMap_append, left.rumors, right.rumors, List.map_append]
  deliveries := by
    rw [List.filterMap_append, left.deliveries, right.deliveries, List.filter_append,
      List.map_append]

/-- The ids of all nodes. -/
def Cluster.originators [Fintype ι] (cluster : Cluster ι) : Finset UInt64 :=
  Finset.univ.image cluster.memberId

omit [DecidableEq ι] in
theorem Cluster.mem_originators [Fintype ι] (cluster : Cluster ι) (i : ι) :
    cluster.memberId i ∈ cluster.originators :=
  Finset.mem_image_of_mem _ (Finset.mem_univ i)

/-- An intact cluster of which every node keeps track, and that shows a board. -/
structure Cluster.Mirrors [Fintype ι] (cluster : Cluster ι) (board : Board ι (List UInt8)) :
    Prop where
  intact : cluster.Intact
  tracks : ∀ i, Tracks cluster.originators (cluster.node i).knowledge
  shows_ : cluster.Shows board

/-! ### Arrivals -/

/-- A data message that arrives at a node of an intact cluster was authored. -/
theorem Cluster.Intact.arrival_authored {cluster : Cluster ι} {call : ι × Input}
    (intact : cluster.Intact) (possible : Possible cluster call) {msg : MessageData}
    (brought : (cluster.node call.1).news call.2 = .arrived msg) :
    cluster.Authored msg.dataVersion msg.data := by
  obtain ⟨i, input⟩ := call
  cases input with
  | processReceive datagram sender beyond random =>
    simp only [PittacusGossip.news] at brought
    split at brought
    · cases received : dataReceived datagram beyond with
      | none => rw [received] at brought; cases brought
      | some found =>
        rw [received] at brought
        cases brought
        -- The datagram was emitted for a message, which is the one it is accepted as.
        obtain ⟨message, vouched, fills⟩ :=
          (intact.genuine datagram (possible.arrives datagram rfl)).fills sender beyond
        simp only [dataReceived] at received
        split at received
        · rename_i count accepted decoded
          cases received
          have same := fills.data decoded
          rw [same] at vouched
          exact vouched
        · cases received
    · cases brought
  | sendData data random =>
    simp only [PittacusGossip.news] at brought
    split at brought <;> cases brought
  | _ => cases brought

/-- In an intact cluster with room to count, every node can keep track of what is sent. -/
theorem Cluster.Intact.orderly [Fintype ι] {cluster : Cluster ι} {call : ι × Input}
    (intact : cluster.Intact) (distinct : Function.Injective cluster.memberId)
    (possible : Possible cluster call)
    (few : ∀ i, ((clusterStep call cluster).state.sent i).length < 2 ^ 32) :
    Orderly cluster.originators (cluster.node call.1) call.2 := by
  refine ⟨fun originator about => ?_, fun msg arrived mine => ?_, fun data brought => ?_⟩
  · cases brought : (cluster.node call.1).news call.2 with
    | nothing => rw [brought] at about; cases about
    | sent data =>
      rw [brought] at about
      cases about
      exact cluster.mem_originators call.1
    | arrived msg =>
      rw [brought] at about
      cases about
      obtain ⟨i, same, -⟩ := intact.arrival_authored possible brought
      rw [← same]
      exact cluster.mem_originators i
  · cases brought : (cluster.node call.1).news call.2 with
    | nothing => rw [brought] at arrived; cases arrived
    | sent data => rw [brought] at arrived; cases arrived
    | arrived found =>
      rw [brought] at arrived
      cases arrived
      obtain ⟨i, same, first, sent⟩ := intact.arrival_authored possible brought
      -- The node is the only one of its id, so it sent a payload of this number itself.
      have here : i = call.1 := distinct (same.trans mine)
      subst here
      have inside := (List.getElem?_eq_some_iff.mp sent).1
      have counted := intact.counted call.1
      rw [UInt32.le_iff_toNat_le, UInt32.le_iff_toNat_le]
      refine ⟨first, ?_⟩
      omega
  · have sent := clusterStep_sent cluster call possible.short call.1
    have room := few call.1
    have counted := intact.counted call.1
    rw [if_pos rfl, Option.mem_def.mp brought] at sent
    rw [sent, List.length_append] at room
    simp only [Option.toList_some, List.length_singleton] at room
    omega

/-! ### One step -/

omit [DecidableEq ι] in
/-- Payloads stay under their numbers when more is sent. -/
theorem Cluster.sentAs_later {cluster later : Cluster ι} {i : ι}
    (grown : cluster.sent i <+: later.sent i) {number : Nat}
    (inside : number ≤ (cluster.sent i).length) :
    later.sentAs i number = cluster.sentAs i number := by
  obtain ⟨more, whole⟩ := grown
  cases number with
  | zero => rfl
  | succ number => rw [Cluster.sentAs, Cluster.sentAs, ← whole, List.getElem?_append_left inside]

omit [DecidableEq ι] in
theorem Cluster.sentAs_of_found {cluster : Cluster ι} {i : ι} {number : Nat} {data : List UInt8}
    (positive : 1 ≤ number) (found : (cluster.sent i)[number - 1]? = some data) :
    cluster.sentAs i number = some (UInt32.ofNat number, data) := by
  cases number with
  | zero => cases positive
  | succ number =>
    rw [Nat.add_sub_cancel] at found
    rw [Cluster.sentAs, found, Option.map_some]

section Step

variable [Fintype ι] {cluster : Cluster ι} {call : ι × Input} {board later : Board ι (List UInt8)}

/-- A node that takes over a payload shows it from then on, and all else stays as it is shown. -/
theorem Cluster.Mirrors.shows_adopted (mirrors : cluster.Mirrors board)
    (distinct : Function.Injective cluster.memberId) (nodes : Fintype.card ι ≤ maxVectorSize)
    (admitted : (cluster.node call.1).knowledge.Admits cluster.originators
      ((cluster.node call.1).news call.2))
    {msg : MessageData}
    (taken : (cluster.node call.1).knowledge.adopted ((cluster.node call.1).news call.2) = some msg)
    {poster : ι} {number : Nat} (positive : 1 ≤ number)
    (version : msg.dataVersion = ⟨UInt32.ofNat number, cluster.memberId poster⟩)
    (found : ((clusterStep call cluster).state.sent poster)[number - 1]? = some msg.data)
    (posted : ∀ i, later.posted i = (clusterStep call cluster).state.sent i)
    (seen : ∀ i j, later.seen i j = if i = call.1 ∧ j = poster then number else board.seen i j) :
    (clusterStep call cluster).state.Shows later := by
  have few : cluster.originators.card ≤ maxVectorSize :=
    Nat.le_trans Finset.card_image_le nodes
  obtain ⟨has, apart⟩ := Knowledge.learn_adopted (mirrors.tracks call.1).ok
    (mirrors.tracks call.1).among few admitted taken
  have learned := (gossipStep_learns call.2 (cluster.node call.1)).knowledge
  rw [← learned] at has apart
  have own := sent_grows cluster call
  have before : ∀ i j, (clusterStep call cluster).state.sentAs j (board.seen i j)
      = cluster.sentAs j (board.seen i j) := by
    intro i j
    refine Cluster.sentAs_later (own j) ?_
    rw [← mirrors.shows_.posted]
    exact board.within i j
  have each : ∀ i j,
      ((clusterStep call cluster).state.node i).knowledge.clock.latest (cluster.memberId j)
        = ((clusterStep call cluster).state.sentAs j (later.seen i j)).map Prod.fst ∧
      ((clusterStep call cluster).state.node i).knowledge.held (cluster.memberId j)
        = (clusterStep call cluster).state.sentAs j (later.seen i j) := by
    intro i j
    have clock := mirrors.shows_.clock i j
    have log := mirrors.shows_.log i j
    rw [← before] at clock log
    rw [clusterStep_node, seen]
    by_cases here : i = call.1
    · subst here
      rw [if_pos rfl]
      by_cases same : j = poster
      · -- This is the one entry that changes.
        subst same
        have from_ : msg.dataVersion.memberId = cluster.memberId j := by rw [version]
        have numbered : msg.dataVersion.sequenceNumber = UInt32.ofNat number := by rw [version]
        rw [if_pos ⟨rfl, rfl⟩, Cluster.sentAs_of_found positive found, ← from_, has.latest,
          has.held, numbered]
        exact ⟨rfl, rfl⟩
      · have other : cluster.memberId j ≠ msg.dataVersion.memberId := by
          rw [version]
          exact fun equal => same (distinct equal)
        obtain ⟨latest, logged⟩ := apart _ other
        rw [if_neg fun both => same both.2, latest, Knowledge.held, logged]
        exact ⟨clock, log⟩
    · rw [if_neg here, if_neg fun both => here both.1]
      exact ⟨clock, log⟩
  refine ⟨posted, fun i j => ?_, fun i j => ?_⟩
  · rw [memberId_step]
    exact (each i j).1
  · rw [memberId_step]
    exact (each i j).2

/-- A step after which nobody knows more shows the same board. -/
theorem Cluster.Mirrors.shows_dropped (mirrors : cluster.Mirrors board)
    (short : ∀ data ∈ call.2.payload, data.length ≤ messageMaxSize - 26)
    (dropped : (cluster.node call.1).knowledge.adopted ((cluster.node call.1).news call.2) = none) :
    (clusterStep call cluster).state.Shows board := by
  have learned := (gossipStep_learns call.2 (cluster.node call.1)).knowledge
  rw [Knowledge.learn_dropped dropped] at learned
  -- A payload of the node's own would have been taken over.
  have unsent : ((cluster.node call.1).news call.2).payload = none := by
    cases brought : (cluster.node call.1).news call.2 with
    | sent data => rw [brought] at dropped; cases dropped
    | _ => rfl
  have sent : ∀ i, (clusterStep call cluster).state.sent i = cluster.sent i := by
    intro i
    rw [clusterStep_sent cluster call short, unsent, Option.toList_none, List.append_nil]
    split
    · rename_i here
      rw [here]
    · rfl
  have known : ∀ i, ((clusterStep call cluster).state.node i).knowledge
      = (cluster.node i).knowledge := by
    intro i
    rw [clusterStep_node]
    split
    · rename_i here
      rw [here, learned]
    · rfl
  have same : ∀ i number, (clusterStep call cluster).state.sentAs i number
      = cluster.sentAs i number := by
    intro i number
    cases number with
    | zero => rfl
    | succ number => rw [Cluster.sentAs, Cluster.sentAs, sent]
  refine ⟨fun i => (mirrors.shows_.posted i).trans (sent i).symm, fun i j => ?_, fun i j => ?_⟩
  · rw [memberId_step, same]
    show ((clusterStep call cluster).state.node i).knowledge.clock.latest _ = _
    rw [known]
    exact mirrors.shows_.clock i j
  · rw [memberId_step, same, known]
    exact mirrors.shows_.log i j

omit [Fintype ι] in
/-- What a step has to report, by what its node takes over and what it has received. -/
theorem clusterStep_reports (cluster : Cluster ι) (call : ι × Input) :
    let known := (cluster.node call.1).knowledge
    let news := (cluster.node call.1).news call.2
    (clusterStep call cluster).events.filterMap rumorAt =
        (known.adopted news).toList.map (fun msg => (call.1, msg.dataVersion, msg.data)) ∧
      (clusterStep call cluster).events.filterMap deliveryAt =
        if (cluster.node call.1).dataReceiver then
          (known.received news).toList.map (fun msg => (call.1, msg.dataVersion, msg.data))
        else [] := by
  intro known news
  have learned := gossipStep_learns call.2 (cluster.node call.1)
  constructor
  · rw [← learned.rumors, List.map_filterMap]
    exact List.filterMap_map
  · have shown : (clusterStep call cluster).events.filterMap deliveryAt =
        ((gossipStep call.2 (cluster.node call.1)).events.filterMap Event.asDelivery).map
          fun delivery => (call.1, delivery) := by
      rw [List.map_filterMap]
      exact List.filterMap_map
    rw [shown, learned.deliveries]
    split
    · rw [List.map_map]
      rfl
    · rfl

/-- What a step of a cluster does is done on its board as well, and reported. -/
def Cluster.StepsOn (cluster : Cluster ι) (board : Board ι (List UInt8)) (call : ι × Input) :
    Prop :=
  ∃ sights later, Board.Step board sights later ∧
    (clusterStep call cluster).state.Shows later ∧
    Reports cluster.memberId (fun i => (cluster.node i).dataReceiver) sights
      (clusterStep call cluster).events

/-- A step in which nothing is taken over is no step of the board. -/
theorem Cluster.Mirrors.dropped (mirrors : cluster.Mirrors board)
    (short : ∀ data ∈ call.2.payload, data.length ≤ messageMaxSize - 26)
    (dropped : (cluster.node call.1).knowledge.adopted ((cluster.node call.1).news call.2) = none) :
    cluster.StepsOn board call := by
  obtain ⟨rumors, deliveries⟩ := clusterStep_reports cluster call
  have unreceived : ((cluster.node call.1).knowledge.received
      ((cluster.node call.1).news call.2)).toList = [] := by
    have part := received_sublist (cluster.node call.1).knowledge ((cluster.node call.1).news call.2)
    rw [dropped] at part
    exact List.sublist_nil.mp part
  refine ⟨[], board, .rest board, mirrors.shows_dropped short dropped, ?_, ?_⟩
  · rw [rumors, dropped]
    rfl
  · rw [deliveries, unreceived]
    exact ite_self _

/-- A payload that is sent is posted. -/
theorem Cluster.Mirrors.posts (mirrors : cluster.Mirrors board)
    (distinct : Function.Injective cluster.memberId) (nodes : Fintype.card ι ≤ maxVectorSize)
    (possible : Possible cluster call)
    (orderly : Orderly cluster.originators (cluster.node call.1) call.2) {data : List UInt8}
    (brought : (cluster.node call.1).news call.2 = .sent data) : cluster.StepsOn board call := by
  obtain ⟨rumors, deliveries⟩ := clusterStep_reports cluster call
  have taken : (cluster.node call.1).knowledge.adopted ((cluster.node call.1).news call.2)
      = some ((cluster.node call.1).ownMessage data) := by rw [brought]; rfl
  have short := possible.short data (payload_of_news (by rw [brought]; rfl))
  have item : ((cluster.node call.1).ownMessage data).data = data := ownMessage_data _ short
  have sent := clusterStep_sent cluster call possible.short
  have posted := mirrors.shows_.posted call.1
  have counted := mirrors.intact.counted call.1
  -- The number of the message is the place of the payload, counted from one.
  have version : ((cluster.node call.1).ownMessage data).dataVersion =
      ⟨UInt32.ofNat ((board.posted call.1).length + 1), cluster.memberId call.1⟩ := by
    rw [posted, ← counted, UInt32.ofNat_add, UInt32.ofNat_toNat]
    rfl
  refine ⟨_, _, .post board call.1 data, ?_, ?_, ?_⟩
  · refine mirrors.shows_adopted distinct nodes orderly.occurs.admits taken (Nat.succ_pos _)
      version ?_ (fun i => ?_) fun _ _ => rfl
    · rw [sent, if_pos rfl, posted, item, brought]
      simp [News.payload]
    · rw [sent, brought]
      show Function.update board.posted call.1 _ i = _
      rw [Function.update_apply, posted, mirrors.shows_.posted i]
      rfl
  · rw [rumors, taken]
    show [(call.1, _, _)] = _
    rw [version, item]
    rfl
  · rw [deliveries, brought, List.filter_cons_of_neg (by simp)]
    exact ite_self _

omit [Fintype ι] [DecidableEq ι] in
/-- What is new to a node has a larger number than the last item it saw of the poster. -/
theorem Cluster.Shows.seen_lt (shows_ : cluster.Shows board) {reader poster : ι}
    (few : (cluster.sent poster).length < 2 ^ 32) {msg : MessageData}
    (novel : (cluster.node reader).knowledge.Novel msg)
    (from_ : msg.dataVersion.memberId = cluster.memberId poster)
    (positive : 1 ≤ msg.dataVersion.sequenceNumber.toNat) :
    board.seen reader poster < msg.dataVersion.sequenceNumber.toNat := by
  have clock := shows_.clock reader poster
  have inside := board.within reader poster
  rw [shows_.posted] at inside
  cases seen : board.seen reader poster with
  | zero => exact positive
  | succ number =>
    rw [seen] at clock inside
    -- The clock holds the number seen last, and the new one is above it.
    rw [Cluster.sentAs, List.getElem?_eq_getElem inside] at clock
    have above := novel (UInt32.ofNat (number + 1)) (by rw [from_]; exact clock)
    rw [UInt32.lt_iff_toNat_lt, UInt32.toNat_ofNat_of_lt' (Nat.lt_of_le_of_lt inside few)] at above
    exact above

/-- A message that is new to a node is read on the board. -/
theorem Cluster.Mirrors.reads (mirrors : cluster.Mirrors board)
    (distinct : Function.Injective cluster.memberId) (nodes : Fintype.card ι ≤ maxVectorSize)
    (possible : Possible cluster call)
    (few : ∀ i, ((clusterStep call cluster).state.sent i).length < 2 ^ 32)
    (orderly : Orderly cluster.originators (cluster.node call.1) call.2) {msg : MessageData}
    (brought : (cluster.node call.1).news call.2 = .arrived msg)
    (novel : (cluster.node call.1).knowledge.Novel msg) : cluster.StepsOn board call := by
  obtain ⟨rumors, deliveries⟩ := clusterStep_reports cluster call
  have received : (cluster.node call.1).knowledge.received (.arrived msg) = some msg := if_pos novel
  have taken : (cluster.node call.1).knowledge.adopted ((cluster.node call.1).news call.2)
      = some msg := by rw [brought]; exact received
  obtain ⟨poster, from_, first, found⟩ := mirrors.intact.arrival_authored possible brought
  have other : call.1 ≠ poster := by
    intro here
    subst here
    -- No number a node gave a payload of its own is new to it.
    obtain ⟨low, high⟩ := orderly.sequenced msg (by rw [brought]; rfl) from_.symm
    exact (mirrors.tracks call.1).own_not_novel from_.symm low high novel
  have version : msg.dataVersion =
      ⟨UInt32.ofNat msg.dataVersion.sequenceNumber.toNat, cluster.memberId poster⟩ := by
    rw [UInt32.ofNat_toNat, from_]
  have posted := mirrors.shows_.posted
  have inside : msg.dataVersion.sequenceNumber.toNat ≤ (board.posted poster).length := by
    have bound := (List.getElem?_eq_some_iff.mp found).1
    rw [posted]
    omega
  have grown := sent_grows cluster call
  have newer := mirrors.shows_.seen_lt
    (Nat.lt_of_le_of_lt (grown poster).length_le (few poster)) novel from_.symm first
  have sent := clusterStep_sent cluster call possible.short
  refine ⟨_, _, .read board other newer inside (by rw [posted]; exact found), ?_, ?_, ?_⟩
  · refine mirrors.shows_adopted distinct nodes orderly.occurs.admits taken first version
      (Board.getElem?_of_prefix (grown poster) found) (fun i => ?_) fun _ _ => rfl
    rw [sent, brought]
    show board.posted i = if i = call.1 then cluster.sent call.1 ++ [] else _
    rw [posted, List.append_nil]
    split
    · rename_i here
      rw [here]
    · rfl
  · rw [rumors, taken]
    show [(call.1, msg.dataVersion, msg.data)] = _
    rw [List.map_singleton, shownAs, ← version]
  · rw [deliveries, brought, received]
    cases receiving : (cluster.node call.1).dataReceiver with
    | false =>
      rw [List.filter_cons_of_neg (by simp [receiving])]
      rfl
    | true =>
      rw [List.filter_cons_of_pos (by simp [receiving, other]), List.map_cons, shownAs, ← version]
      rfl

/-- Every step of a cluster is one of its board, or none. -/
theorem Cluster.Mirrors.step (mirrors : cluster.Mirrors board)
    (distinct : Function.Injective cluster.memberId) (nodes : Fintype.card ι ≤ maxVectorSize)
    (possible : Possible cluster call)
    (few : ∀ i, ((clusterStep call cluster).state.sent i).length < 2 ^ 32) :
    ∃ sights later, Board.Step board sights later ∧
      (clusterStep call cluster).state.Mirrors later ∧
      Reports cluster.memberId (fun i => (cluster.node i).dataReceiver) sights
        (clusterStep call cluster).events := by
  have orderly := mirrors.intact.orderly distinct possible few
  have ids : (clusterStep call cluster).state.originators = cluster.originators :=
    congrArg (Finset.univ.image ·) (funext (memberId_step cluster call))
  have tracks : ∀ i, Tracks (clusterStep call cluster).state.originators
      ((clusterStep call cluster).state.node i).knowledge := by
    intro i
    rw [ids, clusterStep_node]
    split
    · exact (mirrors.tracks call.1).step (Nat.le_trans Finset.card_image_le nodes) orderly
    · exact mirrors.tracks i
  have steps : cluster.StepsOn board call := by
    cases brought : (cluster.node call.1).news call.2 with
    | nothing => exact mirrors.dropped possible.short (by rw [brought]; rfl)
    | sent data => exact mirrors.posts distinct nodes possible orderly brought
    | arrived msg =>
      by_cases novel : (cluster.node call.1).knowledge.Novel msg
      · exact mirrors.reads distinct nodes possible few orderly brought novel
      · exact mirrors.dropped possible.short (by rw [brought]; exact if_neg novel)
  obtain ⟨sights, later, step, shows_, reports⟩ := steps
  exact ⟨sights, later, step, ⟨mirrors.intact.step possible few, tracks, shows_⟩, reports⟩

end Step

/-! ### Runs -/

/-- No node ever changes its data receiver. -/
theorem dataReceiver_step (cluster : Cluster ι) (call : ι × Input) (i : ι) :
    ((clusterStep call cluster).state.node i).dataReceiver = (cluster.node i).dataReceiver := by
  rw [clusterStep_node]
  split
  · rename_i here
    rw [here]
    exact (gossipStep_learns call.2 (cluster.node call.1)).dataReceiver
  · rfl

/-- Every run of a cluster is one of its board. -/
theorem Cluster.Mirrors.run [Fintype ι] {cluster : Cluster ι} {board : Board ι (List UInt8)}
    (mirrors : cluster.Mirrors board) (distinct : Function.Injective cluster.memberId)
    (nodes : Fintype.card ι ≤ maxVectorSize) {calls : List (ι × Input)}
    (possible : Machine.Along clusterStep Possible calls cluster)
    (few : ∀ i, ((Machine.run clusterStep calls cluster).sent i).length < 2 ^ 32) :
    ∃ sights later, Board.Run board sights later ∧
      (Machine.run clusterStep calls cluster).Mirrors later ∧
      Reports cluster.memberId (fun i => (cluster.node i).dataReceiver) sights
        (Machine.trace clusterStep calls cluster) := by
  have along := few_along few
  -- The board goes on from where it was left, under the same ids and receivers.
  induction calls generalizing cluster board with
  | nil => exact ⟨[], board, .done board, mirrors, rfl, rfl⟩
  | cons call rest ih =>
    obtain ⟨sights, middle, step, next, reports⟩ :=
      mirrors.step distinct nodes possible.1 along.1
    have ids : (clusterStep call cluster).state.memberId = cluster.memberId :=
      funext (memberId_step cluster call)
    obtain ⟨others, later, run, last, reports_⟩ :=
      ih next (by rw [ids]; exact distinct) possible.2 few along.2
    rw [ids, funext (dataReceiver_step cluster call)] at reports_
    exact ⟨sights ++ others, later, .next step run, last, reports.append reports_⟩

omit [DecidableEq ι] in
/-- A new cluster shows an empty board. -/
theorem create_mirrors [Fintype ι] (setup : ι → NodeSetup) :
    (Cluster.create setup).Mirrors Board.empty where
  intact := create_intact setup
  tracks i := create_tracks _ (setup i).selfAddress (setup i).bounded (setup i).now
    (setup i).dataReceiver (setup i).fresh
  shows_ := ⟨fun _ => rfl, fun _ _ => rfl, fun _ _ => rfl⟩

/--
A cluster behaves like a board on which each node posts its payloads and reads those of the others.

What a node holds of another one, in its clock and its log, is the payload it read last.
Whatever is read is newer than what was read before, is passed on once, and delivered once.
-/
theorem cluster_refines_board [Fintype ι] (nodes : Fintype.card ι ≤ maxVectorSize)
    (setup : ι → NodeSetup) (distinct : Function.Injective (Cluster.create setup).memberId)
    (calls : List (ι × Input))
    (possible : Machine.Along clusterStep Possible calls (Cluster.create setup))
    (few : ∀ i,
      ((Machine.run clusterStep calls (Cluster.create setup)).sent i).length < 2 ^ 32) :
    ∃ sights board, Board.Run Board.empty sights board ∧
      (Machine.run clusterStep calls (Cluster.create setup)).Shows board ∧
      Reports (Cluster.create setup).memberId (fun i => (setup i).dataReceiver) sights
        (Machine.trace clusterStep calls (Cluster.create setup)) := by
  obtain ⟨sights, board, run, mirrors, reports⟩ :=
    (create_mirrors setup).run distinct nodes possible few
  exact ⟨sights, board, run, mirrors.shows_, reports⟩

/-- The second of two nodes joins the first one, and reads what it posts. -/
theorem cluster_refines_board_two :
    ∃ sights board, Board.Run Board.empty sights board ∧
      (Machine.run clusterStep exchange
        (Cluster.create fun i : Fin 2 => localSetup (if i = 0 then 1 else 2))).Shows board ∧
      Reports (Cluster.create fun i : Fin 2 => localSetup (if i = 0 then 1 else 2)).memberId
        (fun _ => true) sights
        (Machine.trace clusterStep exchange
          (Cluster.create fun i : Fin 2 => localSetup (if i = 0 then 1 else 2))) :=
  cluster_refines_board (by decide) (fun i : Fin 2 => localSetup (if i = 0 then 1 else 2))
    (by decide +kernel) exchange (by decide +kernel) (by decide +kernel)

/-! ### What applications see -/

/-- The payloads a node sent, with their versions. -/
def Cluster.published (cluster : Cluster ι) (i : ι) : List (VectorRecord × List UInt8) :=
  (Board.numbered (cluster.sent i)).map fun item =>
    (⟨UInt32.ofNat item.1, cluster.memberId i⟩, item.2)

/-- What the data receiver of a node is handed from an originator. -/
def deliveryTo (i : ι) (originator : UInt64) (event : ι × Event) :
    Option (VectorRecord × List UInt8) :=
  if event.1 = i then
    event.2.asDelivery.filter fun delivery => delivery.1.memberId = originator
  else none

/-- Whether an event spreads a version to random members. -/
def spreads (version : VectorRecord) (event : ι × Event) : Bool :=
  event.2.asRumor.any fun msg => msg.dataVersion = version

section Seen

variable {memberId : ι → UInt64} {receiving : ι → Bool}
  {sights : List (Board.Sight ι (List UInt8))} {events : List (ι × Event)}

/-- What is delivered to a node of a poster is among what it sees of the poster. -/
theorem Reports.deliveryTo (reports : Reports memberId receiving sights events) (i : ι)
    (originator : UInt64) :
    events.filterMap (deliveryTo i originator) =
      ((sights.filter fun sight => sight.reader ≠ sight.poster ∧ receiving sight.reader).filter
        fun sight => sight.reader = i ∧ memberId sight.poster = originator).map
          fun sight => (shownAs memberId sight).2 := by
  have picked : events.filterMap (Pittacus.deliveryTo i originator) =
      ((events.filterMap deliveryAt).filter fun delivery =>
        delivery.1 = i ∧ delivery.2.1.memberId = originator).map Prod.snd := by
    rw [List.filter_filterMap, List.map_filterMap]
    refine List.filterMap_congr fun event _ => ?_
    -- An event either delivers nothing, or something that the two conditions are about.
    simp only [Pittacus.deliveryTo, deliveryAt]
    cases event.2.asDelivery with
    | none => simp
    | some delivery => by_cases here : event.1 = i <;> simp [here, Option.filter_some]
  rw [picked, reports.deliveries, List.filter_map, List.map_map]
  rfl

/-- A version is spread as often as the item it stands for is seen. -/
theorem Reports.countP_spreads (reports : Reports memberId receiving sights events)
    (version : VectorRecord) :
    events.countP (spreads version) =
      sights.countP fun sight => (shownAs memberId sight).2.1 = version := by
  have shown : events.countP (spreads version) =
      (events.filterMap rumorAt).countP fun rumor => rumor.2.1 = version := by
    rw [List.countP_filterMap]
    refine List.countP_congr fun event _ => ?_
    simp only [spreads, rumorAt]
    cases event.2.asRumor <;> simp
  rw [shown, reports.rumors, List.countP_map]
  rfl

end Seen

/--
Each node is delivered a part of what another one sent, in order, and nothing of its own.

No version is spread more often than there are nodes.
-/
theorem delivered_in_order [Fintype ι] (nodes : Fintype.card ι ≤ maxVectorSize)
    (setup : ι → NodeSetup) (distinct : Function.Injective (Cluster.create setup).memberId)
    (calls : List (ι × Input))
    (possible : Machine.Along clusterStep Possible calls (Cluster.create setup))
    (few : ∀ i,
      ((Machine.run clusterStep calls (Cluster.create setup)).sent i).length < 2 ^ 32) :
    let events := Machine.trace clusterStep calls (Cluster.create setup)
    let after := Machine.run clusterStep calls (Cluster.create setup)
    (∀ reader poster, (events.filterMap (deliveryTo reader (after.memberId poster))).Sublist
      (after.published poster)) ∧
    (∀ i, events.filterMap (deliveryTo i (after.memberId i)) = []) ∧
    ∀ version, events.countP (spreads version) ≤ Fintype.card ι := by
  intro events after
  obtain ⟨sights, board, run, mirrors, reports⟩ :=
    (create_mirrors setup).run distinct nodes possible few
  have advances := run.advances
  have ids : after.memberId = (Cluster.create setup).memberId := funext (memberId_run calls _)
  have posted := mirrors.shows_.posted
  refine ⟨fun reader poster => ?_, fun i => ?_, fun version => ?_⟩
  · have part := (advances.sublist reader poster).map fun item =>
      ((⟨UInt32.ofNat item.1, (Cluster.create setup).memberId poster⟩ : VectorRecord), item.2)
    rw [posted, List.map_map] at part
    rw [Cluster.published, ids, reports.deliveryTo]
    refine List.Sublist.trans ?_ part
    -- Of what the reader sees, what is delivered is a part.
    have same : ∀ sight : Board.Sight ι (List UInt8),
        (sight.reader = reader ∧
            (Cluster.create setup).memberId sight.poster = (Cluster.create setup).memberId poster) ↔
          sight.reader = reader ∧ sight.poster = poster :=
      fun sight => and_congr_right fun _ => distinct.eq_iff
    have kept : ((sights.filter fun sight => sight.reader ≠ sight.poster ∧
          (setup sight.reader).dataReceiver).filter fun sight =>
            sight.reader = reader ∧ sight.poster = poster).Sublist
        (sights.filter fun sight => sight.reader = reader ∧ sight.poster = poster) :=
      List.filter_sublist.filter _
    have named : ∀ sight ∈ sights.filter fun sight =>
          sight.reader = reader ∧ sight.poster = poster,
        (shownAs (Cluster.create setup).memberId sight).2 =
          (⟨UInt32.ofNat sight.number, (Cluster.create setup).memberId poster⟩, sight.item) := by
      intro sight selected
      rw [← (of_decide_eq_true (List.mem_filter.mp selected).2).2]
      rfl
    simp only [same]
    refine (kept.map fun sight => (shownAs (Cluster.create setup).memberId sight).2).trans ?_
    rw [List.map_congr_left named]
    exact .refl _
  · -- Whatever is delivered is somebody else's.
    rw [ids, reports.deliveryTo, List.map_eq_nil_iff, List.filter_eq_nil_iff]
    intro sight selected here
    obtain ⟨reads, posts⟩ := of_decide_eq_true here
    obtain ⟨other, -⟩ := of_decide_eq_true (List.mem_filter.mp selected).2
    exact other (reads.trans (distinct posts).symm)
  · rw [reports.countP_spreads]
    by_cases known : ∃ poster, (Cluster.create setup).memberId poster = version.memberId
    · obtain ⟨poster, from_⟩ := known
      refine Nat.le_trans (List.countP_mono_left fun sight seen same => ?_)
        (advances.count_le poster version.sequenceNumber.toNat)
      have version_ : (⟨UInt32.ofNat sight.number,
          (Cluster.create setup).memberId sight.poster⟩ : VectorRecord) = version :=
        of_decide_eq_true same
      rw [← version_] at from_ ⊢
      have here : sight.poster = poster := (distinct from_).symm
      -- No item has a number that does not fit.
      have bound := advances.number_le sight seen
      rw [posted] at bound
      have small := Nat.lt_of_le_of_lt bound (few sight.poster)
      exact decide_eq_true ⟨here, (UInt32.toNat_ofNat_of_lt' small).symm⟩
    · rw [List.countP_eq_zero.mpr fun sight _ same => ?_]
      · exact Nat.zero_le _
      · have version_ : (⟨UInt32.ofNat sight.number,
            (Cluster.create setup).memberId sight.poster⟩ : VectorRecord) = version :=
          of_decide_eq_true same
        exact known ⟨sight.poster, by rw [← version_]⟩

/-- The payload of the first of two nodes is delivered to the second, and spread by both. -/
theorem delivered_in_order_two :
    let start := Cluster.create fun i : Fin 2 => localSetup (if i = 0 then 1 else 2)
    (Machine.trace clusterStep exchange start).filterMap (deliveryTo 1 (start.memberId 0))
        = [(⟨1, start.memberId 0⟩, [42])] ∧
      ∀ version, (Machine.trace clusterStep exchange start).countP (spreads version) ≤ 2 :=
  ⟨by decide +kernel,
    (delivered_in_order (by decide) (fun i : Fin 2 => localSetup (if i = 0 then 1 else 2))
      (by decide +kernel) exchange (by decide +kernel) (by decide +kernel)).2.2⟩

end Pittacus
