import Pittacus.AntiEntropy.Pulls
import Pittacus.Cluster.Retirement

/-! Data that was acknowledged has been seen by the node it was sent to. -/

namespace Pittacus

/-! ### What is accepted -/

/-- Of all decoders, only that of data messages makes a data message. -/
theorem dataDecoded_of_received {datagram : List UInt8} {beyond : Nat → UInt8} {msg : MessageData}
    (read : messageReceived datagram beyond = some (.data msg)) :
    ∃ count, (messageDataDecode (datagram.take messageMaxSize).length).result
      (Decoder.memoryOf (datagram.take messageMaxSize) beyond) = .ok (count, msg) := by
  simp only [messageReceived] at read
  split at read
  · rename_i count found decoded
    cases read
    exact messageDecode_elim (motive := fun message => message = .data msg →
        ∃ count, (messageDataDecode (datagram.take messageMaxSize).length).result
          (Decoder.memoryOf (datagram.take messageMaxSize) beyond) = .ok (count, msg)) decoded
      (fun _ _ other => by cases other) (fun _ _ other => by cases other)
      (fun _ _ other => by cases other) (fun _ _ other => by cases other)
      (fun _ decoded same => by cases same; exact ⟨count, decoded⟩)
      (fun _ _ other => by cases other) rfl
  · cases read

/-- A data message that a node accepts is what the call tells it. -/
theorem news_of_accepts {self : PittacusGossip} {input : Input} {sender : List UInt8}
    {msg : MessageData} (accepted : self.accepts input = some (sender, .data msg)) :
    self.news input = .arrived msg := by
  cases input with
  | processReceive datagram address beyond random =>
    simp only [PittacusGossip.accepts] at accepted
    split at accepted
    · rename_i connected
      obtain ⟨message, read, same⟩ := Option.map_eq_some_iff.mp accepted
      rw [(Prod.mk.inj same).2] at read
      obtain ⟨count, decoded⟩ := dataDecoded_of_received read
      simp only [PittacusGossip.news, if_pos connected, dataReceived, decoded]
    · cases accepted
  | _ => cases accepted

variable {ι : Type} [DecidableEq ι]

/-- Whatever was accepted was accepted in some call. -/
theorem acceptance_made {calls : List (ι × Input)} {net : Network ι} {acceptance : Acceptance ι}
    (accepted : acceptance ∈ (Machine.run networkStep calls net).acceptances) :
    acceptance ∈ net.acceptances ∨ ∃ earlier input later,
      calls = earlier ++ (acceptance.receiver, input) :: later ∧
        ((Machine.run networkStep earlier net).node acceptance.receiver).accepts input
          = some (acceptance.sender, acceptance.message) := by
  induction calls generalizing net with
  | nil => exact .inl accepted
  | cons call rest ih =>
    rcases ih accepted with now | ⟨earlier, input, later, rfl, there⟩
    · rcases List.mem_append.mp now with before | made
      · exact .inl before
      · obtain ⟨found, here, rfl⟩ := List.mem_map.mp made
        exact .inr ⟨[], call.2, rest, rfl, Option.mem_toList.mp here⟩
    · exact .inr ⟨call :: earlier, input, later, rfl, there⟩

/-! ### A network as a cluster -/

/-- A network and a cluster of the same nodes, where whatever was transmitted was emitted. -/
structure Network.Alike (net : Network ι) (cluster : Cluster ι) : Prop where
  node : net.node = cluster.node
  emitted : ∀ transmission ∈ net.transmissions, transmission.datagram ∈ cluster.datagrams

/-- Calls change both alike. -/
theorem Network.Alike.step {net : Network ι} {cluster : Cluster ι} (alike : net.Alike cluster)
    (call : ι × Input) :
    (networkStep call net).state.Alike (clusterStep call cluster).state where
  node := by
    show Function.update net.node call.1 _ = Function.update cluster.node call.1 _
    rw [alike.node]
  emitted transmission sent := by
    rcases List.mem_append.mp sent with before | made
    · exact List.mem_append_left _ (alike.emitted transmission before)
    · obtain ⟨event, caused, shown⟩ := List.mem_filterMap.mp made
      rw [alike.node] at caused
      refine List.mem_append_right _ (List.mem_filterMap.mpr ⟨event, caused, ?_⟩)
      cases event with
      | sendTo envelope datagram now result =>
        simp only [Event.asTransmission] at shown
        split at shown
        · cases shown
          rfl
        · cases shown
      | _ => cases shown

/-- What is possible in a network is possible in a cluster of the same nodes. -/
theorem Network.Alike.possible {net : Network ι} {cluster : Cluster ι} (alike : net.Alike cluster)
    {routes : List UInt8 → Option ι} {calls : List (ι × Input)}
    (delivers : Machine.Along networkStep (Network.Delivers routes) calls net)
    (room : Machine.Along networkStep Network.FindsRoom calls net)
    (short : ∀ call ∈ calls, ∀ data ∈ call.2.payload, data.length ≤ messageMaxSize - 26) :
    Machine.Along clusterStep Possible calls cluster ∧
      (Machine.run networkStep calls net).Alike (Machine.run clusterStep calls cluster) := by
  induction calls generalizing net cluster with
  | nil => exact ⟨trivial, alike⟩
  | cons call rest ih =>
    have now : Possible cluster call := by
      refine ⟨fun datagram received => ?_, short call List.mem_cons_self, ?_⟩
      · obtain ⟨sender, arrived⟩ := exists_arrival received
        obtain ⟨transmission, sent, same, -⟩ := delivers.1 _ arrived
        rw [← show transmission.datagram = datagram from same]
        exact alike.emitted transmission sent
      · show ∀ event ∈ (gossipStep call.2 (cluster.node call.1)).events.map _, _
        rw [← alike.node]
        exact room.1
    obtain ⟨later, last⟩ := ih (alike.step call) delivers.2 room.2
      fun other member => short other (List.mem_cons_of_mem _ member)
    exact ⟨⟨now, later⟩, last⟩

/-- A call sends one payload at most, and only one that sends data sends any. -/
theorem payloads_le (input : Input) (value : Int) :
    (if 0 ≤ value then input.payload.toList else []).length ≤ if input.sendsData then 1 else 0 := by
  have whole : input.payload.toList.length ≤ if input.sendsData then 1 else 0 := by
    cases input <;> exact Nat.le_refl _
  split
  · exact whole
  · exact Nat.zero_le _

/-- A node has sent at most as many payloads as it was called to. -/
theorem sent_le (calls : List (ι × Input)) (cluster : Cluster ι) (i : ι) :
    ((Machine.run clusterStep calls cluster).sent i).length ≤
      (cluster.sent i).length + calls.countP fun call => call.1 = i ∧ call.2.sendsData := by
  induction calls generalizing cluster with
  | nil => exact Nat.le_refl _
  | cons call rest ih =>
    have one : ((clusterStep call cluster).state.sent i).length ≤ (cluster.sent i).length +
        if decide (call.1 = i ∧ call.2.sendsData = true) then 1 else 0 := by
      show (Function.update cluster.sent call.1 _ i).length ≤ _
      rw [Function.update_apply]
      by_cases here : i = call.1
      · subst here
        have made := payloads_le call.2 (gossipStep call.2 (cluster.node call.1)).value
        rw [if_pos rfl, List.length_append]
        simpa using made
      · rw [if_neg here]
        exact Nat.le_add_right _ _
    have later := ih (clusterStep call cluster).state
    rw [List.countP_cons]
    show ((Machine.run clusterStep rest (clusterStep call cluster).state).sent i).length ≤ _
    omega

/-! ### Retired data -/

/-- Data that handling a datagram takes out of the queue was seen by the node it was sent to. -/
def Network.RetiresSeen (routes : List UInt8 → Option ι) (net : Network ι) (call : ι × Input) :
    Prop :=
  ∀ datagram sender beyond random, call.2 = .processReceive datagram sender beyond random →
    ∀ envelope ∈ (net.node call.1).outboundMessages,
      envelope ∉ ((networkStep call net).state.node call.1).outboundMessages →
        ∀ msg, envelope.message = .data msg →
          ∃ receiver, routes envelope.recipient = some receiver ∧
            ∃ number ∈ (net.node receiver).dataVersion.latest msg.dataVersion.memberId,
              msg.dataVersion.sequenceNumber ≤ number

/-- An accepted data message is the one that was transmitted. -/
def Network.Carried (routes : List UInt8 → Option ι) (net : Network ι)
    (acceptance : Acceptance ι) : Prop :=
  ∀ msg, acceptance.message = .data msg → ∃ transmission ∈ net.transmissions,
    routes acceptance.sender = some transmission.source ∧
      msg.header.sequenceNum = transmission.envelope.sequenceNum ∧
      ∃ sent, transmission.envelope.message = .data sent ∧ sent.dataVersion = msg.dataVersion

omit [DecidableEq ι] in
/-- What a connected node accepts as data was transmitted as that data. -/
theorem Network.Sound.carried {routes : List UInt8 → Option ι} {net : Network ι}
    {call : ι × Input} (sound : net.Sound) (delivers : net.Delivers routes call)
    {address : List UInt8} {message : Message}
    (accepted : (net.node call.1).accepts call.2 = some (address, message)) :
    net.Carried routes ⟨call.1, address, message⟩ := by
  rintro msg rfl
  obtain ⟨receiver, input⟩ := call
  cases input with
  | processReceive datagram sender beyond random =>
    simp only [PittacusGossip.accepts] at accepted
    split at accepted
    · obtain ⟨found, read, paired⟩ := Option.map_eq_some_iff.mp accepted
      rw [(Prod.mk.inj paired).2] at read
      obtain ⟨count, decoded⟩ := dataDecoded_of_received read
      obtain ⟨transmission, sent, same, -, origin⟩ := delivers (datagram, sender) rfl
      have fills := (sound.faithful transmission sent).fills sender beyond
      rw [show transmission.datagram = datagram from same] at fills
      have carries := fills.data decoded
      rw [← (Prod.mk.inj paired).1]
      refine ⟨transmission, sent, origin, ?_⟩
      -- The message read is the one sent, under the number of its envelope.
      cases message : transmission.envelope.message with
      | data sent =>
        rw [message] at carries
        cases carries
        exact ⟨rfl, sent, rfl, rfl⟩
      | _ =>
        rw [message] at carries
        cases carries
    · cases accepted
  | _ => cases accepted

/-- Every reply can be traced back, and every payload accepted to the one transmitted. -/
structure Network.Tracked (routes : List UInt8 → Option ι) (net : Network ι) : Prop where
  traced : net.Traced routes
  carried : ∀ acceptance ∈ net.acceptances, net.Carried routes acceptance

theorem Network.Tracked.step {routes : List UInt8 → Option ι} {net : Network ι} {call : ι × Input}
    (tracked : net.Tracked routes) (delivers : net.Delivers routes call) (room : net.FindsRoom call)
    (counts : net.Counts call) : (networkStep call net).state.Tracked routes where
  traced := tracked.traced.step delivers room counts
  carried acceptance remembered := by
    have later : net.Carried routes acceptance →
        (networkStep call net).state.Carried routes acceptance := by
      intro carried msg data
      obtain ⟨transmission, sent, rest⟩ := carried msg data
      exact ⟨transmission, List.mem_append_left _ sent, rest⟩
    rcases List.mem_append.mp remembered with before | now
    · exact later (tracked.carried acceptance before)
    · obtain ⟨found, accepted, rfl⟩ := List.mem_map.mp now
      exact later (tracked.traced.sound.carried delivers (Option.mem_toList.mp accepted))

omit [DecidableEq ι] in
/-- The payload of an envelope that reached its recipient was accepted there. -/
theorem Network.Tracked.accepted {routes : List UInt8 → Option ι} {net : Network ι}
    (tracked : net.Tracked routes) {source receiver : ι} {envelope : MessageEnvelopeOut}
    {msg : MessageData} (reached : net.Reached routes source receiver envelope)
    (waiting : envelope ∈ (net.node source).outboundMessages)
    (carries : envelope.message = .data msg) :
    ∃ acceptance ∈ net.acceptances, acceptance.receiver = receiver ∧
      ∃ found, acceptance.message = .data found ∧ found.dataVersion = msg.dataVersion := by
  obtain ⟨-, -, acceptance, accepted, there, from_, number⟩ := reached
  have listed : envelope.untried ∈ (net.node source).pending := List.mem_map_of_mem waiting
  -- Whatever was transmitted under the number of the envelope is the envelope.
  have same : ∀ transmission ∈ net.transmissions,
      routes acceptance.sender = some transmission.source →
      acceptance.message.header.sequenceNum = transmission.envelope.sequenceNum →
        transmission.envelope.message = .data msg := by
    intro transmission sent origin numbered
    have mine : transmission.source = source := by
      rw [from_] at origin
      exact (Option.some.inj origin).symm
    have one := (tracked.traced.identified transmission sent).unique envelope.untried
      (by rw [mine]; exact listed) (congrArg UInt32.toNat (number.symm.trans numbered))
    obtain ⟨-, -, -, message⟩ := MessageEnvelopeOut.untried_eq one
    rw [← message, carries]
  obtain ⟨transmission, sent, -, origin, numbered, type⟩ := tracked.traced.sourced acceptance accepted
  rw [same transmission sent origin numbered] at type
  cases found : acceptance.message with
  | data data =>
    obtain ⟨transmission_, sent_, origin_, numbered_, original, carried, version⟩ :=
      tracked.carried acceptance accepted data found
    have one := same transmission_ sent_ origin_ (by rw [found]; exact numbered_)
    rw [carried] at one
    cases one
    exact ⟨acceptance, accepted, there, data, found, version.symm⟩
  | _ =>
    rw [found] at type
    simp only [Message.type] at type
    exact absurd type (by decide)

/-! ### Runs -/

/-- What was accepted as data in a run is seen from then on. -/
theorem accepted_seen [Fintype ι] {net : Network ι} {cluster : Cluster ι}
    (alike : net.Alike cluster) (inOrder : cluster.InOrder) (fresh : net.acceptances = [])
    {routes : List UInt8 → Option ι} {calls : List (ι × Input)}
    (delivers : Machine.Along networkStep (Network.Delivers routes) calls net)
    (room : Machine.Along networkStep Network.FindsRoom calls net)
    (short : ∀ call ∈ calls, ∀ data ∈ call.2.payload, data.length ≤ messageMaxSize - 26)
    (few : ∀ i, ((Machine.run clusterStep calls cluster).sent i).length < 2 ^ 32)
    {acceptance : Acceptance ι}
    (accepted : acceptance ∈ (Machine.run networkStep calls net).acceptances) {msg : MessageData}
    (data : acceptance.message = .data msg) :
    ∃ number ∈ ((Machine.run networkStep calls net).node acceptance.receiver).dataVersion.latest
        msg.dataVersion.memberId, msg.dataVersion.sequenceNumber ≤ number := by
  obtain ⟨possible, last⟩ := alike.possible delivers room short
  rcases acceptance_made accepted with before | ⟨earlier, input, later, rfl, there⟩
  · rw [fresh] at before
    cases before
  have whole : Countable cluster (earlier ++ (acceptance.receiver, input) :: later) :=
    ⟨possible, few⟩
  have start := whole.shorter
  have alike_ := (alike.possible (Machine.along_append.mp delivers).1
    (Machine.along_append.mp room).1
    fun call member => short call (List.mem_append_left _ member)).2
  have then_ := (inOrder.run start.possible start.few).1
  obtain ⟨board, mirrors⟩ := then_.mirrors
  rw [alike_.node, data] at there
  let call : ι × Input := (acceptance.receiver, input)
  have brought : ((Machine.run clusterStep earlier cluster).node call.1).news call.2 = .arrived msg :=
    news_of_accepts there
  have now := (Machine.along_append.mp possible).2.1
  obtain ⟨poster, from_, positive, -⟩ := mirrors.intact.arrival_authored now brought
  have seen := then_.seen_arrived brought from_.symm
  -- What was seen when the message arrived is seen at the end.
  have split_ : earlier ++ (acceptance.receiver, input) :: later
      = (earlier ++ [(acceptance.receiver, input)]) ++ later := by simp
  rw [split_] at whole
  have kept := whole.seen_le inOrder acceptance.receiver poster
  rw [← split_, Machine.run_append] at kept
  have reached := Nat.le_trans seen kept
  rw [last.node]
  rw [Cluster.seen, memberId_run, ← memberId_run earlier, from_] at reached
  cases latest : ((Machine.run clusterStep (earlier ++ (acceptance.receiver, input) :: later)
      cluster).node acceptance.receiver).dataVersion.latest msg.dataVersion.memberId with
  | none =>
    rw [latest] at reached
    exact absurd (Nat.le_trans positive reached) (by decide)
  | some number =>
    rw [latest] at reached
    exact ⟨number, rfl, UInt32.le_iff_toNat_le.mpr reached⟩

end Pittacus
