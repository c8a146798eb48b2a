import Pobicos.System.Agreement

/-!
# Pobicos.System.Join

The middleware joins the network with the address of its client.

`joinNetwork` takes the address the registry service stores at that moment.
Nothing makes it wait for the `WELCOME`, and nothing tells it of another one: a
node that joins too early has the address 0 (`not_joined_of_not_welcomed`), and
keeps it (`joined_early`).  Where it joins with an address stored, and no other
one is stored later, it has the address the directory has assigned to the
client (`joined_of_run`).
-/

namespace Pobicos.System

open Nio Octets Framing NetworkMsg Directory Client Middleware

/-! ## One client -/

namespace Node

variable {n n' : Node}

/-- Out of `S_INITIAL` it has the address that is stored. -/
def Joined (n : Node) : Prop :=
  n.hwComm.mState ≠ .initial →
    n.hwComm.myAddr = n.registry.myAddr.setWidth 32 ∧ n.registry.myAddr ≠ 0

/-- Until a `WELCOME` has been handled, nothing is stored. -/
def Unwelcomed (n : Node) : Prop := n.welcomed = false → n.stored = (0, 0)

/-- Neither the middleware nor what is stored has changed. -/
structure Keeps (n n' : Node) : Prop where
  stored : n'.stored = n.stored
  hwComm : n'.hwComm = n.hwComm
  welcomed : n'.welcomed = n.welcomed

theorem Keeps.joined (h : n.Keeps n') (hn : n.Joined) : n'.Joined := by
  have haddr : n'.registry.myAddr = n.registry.myAddr := congrArg Prod.fst h.stored
  unfold Joined
  rw [h.hwComm, haddr]
  exact hn

theorem Keeps.unwelcomed (h : n.Keeps n') (hn : n.Unwelcomed) : n'.Unwelcomed := by
  unfold Unwelcomed
  rw [h.stored, h.welcomed]
  exact hn

theorem keeps_offer (n : Node) (msg : Except Throwable NetworkMsg) (ident : Option AddrSeed) :
    n.Keeps (n.offer msg ident) := by
  cases msg <;> exact ⟨rfl, rfl, rfl⟩

theorem keeps_startUpdateThread (n : Node) : n.Keeps n.startUpdateThread := ⟨rfl, rfl, rfl⟩

theorem keeps_locate (n : Node) (lat lon : JDouble) : n.Keeps (n.locate lat lon) := ⟨rfl, rfl, rfl⟩

theorem keeps_outMsgQ (n : Node) (queue : List Queued) : n.Keeps { n with outMsgQ := queue } :=
  ⟨rfl, rfl, rfl⟩

theorem keeps_sendMsg (n : Node) (allocated : Bool) (addr : AddrType) (poMsg : PoMsg) :
    n.Keeps (n.sendMsg allocated addr poMsg) := by
  unfold sendMsg
  split
  · exact n.keeps_offer ..
  · exact ⟨rfl, rfl, rfl⟩

/-- **It joins well** exactly if an address is stored. -/
theorem joined_joinNetwork_iff (n : Node) : n.joinNetwork.Joined ↔ n.registry.myAddr ≠ 0 := by
  constructor
  · intro h
    exact (h (by simp [joinNetwork, HWComm.joinNetwork])).2
  · intro h _
    exact ⟨rfl, h⟩

/-- What the reader does leaves it joined, if it is told no other address. -/
theorem Joined.react (hn : n.Joined) (effects : List Effect)
    (hsame : ∀ addr seed, .welcome addr seed ∈ effects → n.hwComm.mState ≠ .initial →
      addr = n.registry.myAddr) :
    (effects.foldl Node.react n).Joined := by
  induction effects generalizing n with
  | nil => exact hn
  | cons e effects ih =>
      have hrest : ∀ addr seed, .welcome addr seed ∈ effects → n.hwComm.mState ≠ .initial →
          addr = n.registry.myAddr :=
        fun addr seed hmem => hsame addr seed (List.mem_cons_of_mem _ hmem)
      cases e with
      | welcome a s =>
          have htold := hsame a s List.mem_cons_self
          refine ih (fun hstarted => ?_) fun addr seed hmem hstarted => ?_
          · obtain ⟨haddr, hne⟩ := hn hstarted
            rw [← htold hstarted] at haddr hne
            exact ⟨haddr, hne⟩
          · exact (hrest addr seed hmem hstarted).trans (htold hstarted).symm
      | fail => exact ih hn hrest
      | pong => exact ih hn hrest
      | packetRx msg => exact ih hn hrest

theorem Unwelcomed.react (hn : n.Unwelcomed) (effects : List Effect) :
    (effects.foldl Node.react n).Unwelcomed := by
  induction effects generalizing n with
  | nil => exact hn
  | cons e effects ih =>
      cases e with
      | welcome a s => exact ih fun hnew => (nomatch (show true = false from hnew))
      | fail => exact ih hn
      | pong => exact ih hn
      | packetRx msg => exact ih hn

/-- A joined node receives what is sent to its address. -/
theorem Joined.receives (hn : n.Joined) (hstarted : n.hwComm.mState ≠ .initial) {payload : List Byte}
    (hshort : payload.length ≤ MAX_RADIO_MSG_DATA) (source : JChar) :
    n.hwComm.nativeReceivedPacket payload source n.registry.myAddr =
      some (source.setWidth 32, 1, payload) := by
  rw [HWComm.nativeReceivedPacket, if_neg (fun h => h.1 (hn hstarted).1.symm),
    if_neg (Nat.not_lt.mpr hshort)]

end Node

namespace World

variable {cfg : Config} {w w' : World} {c : Nat}

/-! ## One event -/

/-- What the event `e` makes of the client `c`. -/
inductive Moves (w : World) (c : Nat) : Event → Node → Prop
  | keeps {e : Event} {n : Node} (h : (w.nodes c).Keeps n) : Moves w c e n
  | boot : Moves w c (.boot c) (w.nodes c).boot
  | joinNetwork : Moves w c (.joinNetwork c) (w.nodes c).joinNetwork
  | read {k : SocketId} {es : List ReadEvt} {conn : Conn} {t : ReadTask} {u : ReadTask.Turn}
      (hk : w.conns k = some conn) (howner : conn.owner = c) (hreader : conn.reader = some t)
      (hturn : t.turn ⟨true, (w.server.net k).outp.drop conn.heard, []⟩ es = (.ret, u)) :
      Moves w c (.read k es) (u.effects.foldl Node.react (w.nodes c))

/-- An event that changes the process of `d` alone. -/
theorem moves_setNode {w₀ : World} (hnodes : w₀.nodes = w.nodes) {d : Nat} {e : Event} {n : Node}
    (h : Moves w d e n) (c : Nat) : Moves w c e ((w₀.setNode d n).nodes c) := by
  by_cases hc : c = d
  · rw [hc, nodes_setNode_self]
    exact h
  · rw [nodes_setNode_of_ne hc, hnodes]
    exact .keeps ⟨rfl, rfl, rfl⟩

/-- **Inversion**, for a client. -/
theorem moves_of_step {e : Event} (h : step cfg w e = some w') (c : Nat) :
    Moves w c e (w'.nodes c) := by
  cases e with
  | connect d k =>
      obtain ⟨σ, -, rfl⟩ := Option.map_eq_some_iff.mp h
      exact .keeps ⟨rfl, rfl, rfl⟩
  | register d =>
      cases h
      exact moves_setNode rfl (.keeps (Node.keeps_offer ..)) c
  | startUpdateThread d =>
      cases h
      exact moves_setNode rfl (.keeps (Node.keeps_startUpdateThread ..)) c
  | update d i =>
      obtain ⟨t, -, rfl⟩ := step_update h
      exact moves_setNode rfl (.keeps (Node.keeps_offer ..)) c
  | locate d lat lon =>
      cases h
      exact moves_setNode rfl (.keeps (Node.keeps_locate ..)) c
  | boot d =>
      cases h
      exact moves_setNode rfl .boot c
  | joinNetwork d =>
      cases h
      exact moves_setNode rfl .joinNetwork c
  | sendMsg d allocated addr poMsg =>
      cases h
      exact moves_setNode rfl (.keeps (Node.keeps_sendMsg ..)) c
  | write k app hostsRootAgent es =>
      obtain ⟨conn, m, queue, -, -, -, rfl⟩ := step_write h
      exact moves_setNode rfl (.keeps ((w.nodes conn.owner).keeps_outMsgQ queue)) c
  | read k es =>
      obtain ⟨conn, t, hk, hreader, rfl | ⟨u, hturn, rfl⟩⟩ := step_read h
      · exact .keeps ⟨rfl, rfl, rfl⟩
      · exact moves_setNode rfl (.read hk rfl hreader hturn) c
  | dispatch k sc =>
      obtain ⟨σ, -, rfl⟩ := Option.map_eq_some_iff.mp h
      exact .keeps ⟨rfl, rfl, rfl⟩

/-- Until the `WELCOME` has been handled, a client stores nothing, in any run. -/
theorem unwelcomed_of_run {es : List Event} (hrun : Lts.run (step cfg) .new es = some w) (c : Nat) :
    (w.nodes c).Unwelcomed := by
  refine Lts.run_invariant (P := fun w => ∀ c, (w.nodes c).Unwelcomed) (fun v e v' hv hst c => ?_)
    (fun _ _ => rfl) hrun c
  have hmoves := moves_of_step hst c
  generalize v'.nodes c = n at hmoves ⊢
  cases hmoves with
  | keeps hkeeps => exact hkeeps.unwelcomed (hv c)
  | boot => exact hv c
  | joinNetwork => exact hv c
  | read => exact (hv c).react _

/-! ## The join agreement -/

/-- Out of `S_INITIAL`, the middleware of a client has the address, other than
0, of the record of one of its connections that it stores. -/
def Joined (w : World) : Prop :=
  ∀ c, (w.nodes c).hwComm.mState ≠ .initial → ∃ n ∈ w.server.registry.reg,
    (w.conns n.sock).map Conn.owner = some c ∧ (n.poNodeAddr, n.seed) = (w.nodes c).stored ∧
      (w.nodes c).hwComm.myAddr = n.poNodeAddr.setWidth 32 ∧ n.poNodeAddr ≠ 0

/-- Where client and directory agree, it is a matter of the clients alone. -/
theorem Agreed.joined_iff (hw : Agreed w) : Joined w ↔ ∀ c, (w.nodes c).Joined := by
  constructor
  · intro h c hstarted
    obtain ⟨n, -, -, hstored, haddr, hne⟩ := h c hstarted
    rw [show (w.nodes c).registry.myAddr = n.poNodeAddr from (congrArg Prod.fst hstored).symm]
    exact ⟨haddr, hne⟩
  · intro h c hstarted
    obtain ⟨haddr, hne⟩ := h c hstarted
    obtain hzero | ⟨n, hn, howner, hstored⟩ := hw.stored c
    · exact absurd (congrArg Prod.fst hzero) hne
    · have hsame : n.poNodeAddr = (w.nodes c).registry.myAddr := congrArg Prod.fst hstored
      rw [← hsame] at haddr hne
      exact ⟨n, hn, howner, hstored, haddr, hne⟩

/-- The next frame is a `WELCOME` with another address. -/
def Readdresses (addr : JChar) (unread : List Byte) : Prop :=
  match decode unread with
  | some (f, _) => f.tag = REG_REPLY_WELCOME ∧ f.body.take 2 ≠ toBE 2 addr
  | none => False

instance (addr : JChar) (unread : List Byte) : Decidable (Readdresses addr unread) := by
  unfold Readdresses
  split <;> infer_instance

/-- `joinNetwork` is called with an address stored, and no joined client is
about to read another one. -/
def JoinsInTime (w : World) : Event → Prop
  | .joinNetwork c => (w.nodes c).registry.myAddr ≠ 0
  | .read k _ => ∀ conn ∈ w.conns k, (w.nodes conn.owner).hwComm.mState ≠ .initial →
      ¬ Readdresses (w.nodes conn.owner).registry.myAddr ((w.server.net k).outp.drop conn.heard)
  | _ => True

instance (w : World) : (e : Event) → Decidable (w.JoinsInTime e)
  | .joinNetwork c => inferInstanceAs (Decidable ((w.nodes c).registry.myAddr ≠ 0))
  | .read k _ => Option.decidableForallMem (w.conns k)
  | .connect .. | .register _ | .startUpdateThread _ | .update .. | .locate .. | .boot _ | .sendMsg ..
  | .write .. | .dispatch .. => inferInstanceAs (Decidable True)

/-- The address of a `WELCOME` that does not readdress the node. -/
theorem addr_eq_of_not_readdresses {addr own : JChar} {seed : JInt} {rest : List Byte}
    (h : ¬ Readdresses own ((RequestHandler.welcomeReply addr seed).bytes ++ rest)) : addr = own := by
  rw [Readdresses, decode_bytes_append] at h
  have htag : (RequestHandler.welcomeReply addr seed).tag = REG_REPLY_WELCOME := rfl
  have hbody : (RequestHandler.welcomeReply addr seed).body.take 2 = toBE 2 addr :=
    List.take_left' (length_toBE ..)
  by_contra hne
  refine h ⟨htag, fun heq => hne ?_⟩
  have hread := congrArg (ofBE 16) (hbody.symm.trans heq)
  rwa [ofBE_toBE (Nat.le_refl 16), ofBE_toBE (Nat.le_refl 16)] at hread

/-- **Step lemma.** -/
theorem joined_step {e : Event} (hw : Invariant cfg w) (hj : ∀ c, (w.nodes c).Joined)
    (hok : w.JoinsInTime e) (h : step cfg w e = some w') (c : Nat) : (w'.nodes c).Joined := by
  have hmoves := moves_of_step h c
  generalize w'.nodes c = n at hmoves ⊢
  cases hmoves with
  | keeps hkeeps => exact hkeeps.joined (hj c)
  | boot => exact fun hstarted => absurd rfl hstarted
  | joinNetwork => exact (w.nodes c).joined_joinNetwork_iff.mpr hok
  | @read k es conn t u hk howner hreader hturn =>
      refine (hj c).react u.effects fun addr seed hmem hstarted => ?_
      obtain ⟨-, htold⟩ := didRead_of_told (hw.announced.told k) (hw.conns k conn hk).reads hreader hturn
      obtain ⟨-, rest, hnext⟩ := htold addr seed hmem
      rw [← howner] at hstarted ⊢
      have hsame := hok conn hk hstarted
      rw [hnext] at hsame
      exact addr_eq_of_not_readdresses hsame

/-- **Join agreement**: in a run in which every message is forwarded whole,
every `joinNetwork` finds an address stored, and no joined client is given
another one, every middleware out of `S_INITIAL` has the address the directory
has assigned to its client. -/
theorem joined_of_run {es : List Event}
    (hok : Lts.Along (step cfg) (fun w e => w.ForwardsWhole cfg e ∧ w.JoinsInTime e) .new es)
    (hrun : Lts.run (step cfg) .new es = some w) : Joined w := by
  have hboth : Invariant cfg w ∧ ∀ c, (w.nodes c).Joined :=
    Lts.run_induct (P := fun w => Invariant cfg w ∧ ∀ c, (w.nodes c).Joined)
      (fun _ _ _ hv hva hst => ⟨hv.1.step hva.1 hst, joined_step hv.1 hv.2 hva.2 hst⟩) hok
      ⟨invariant_new cfg, fun _ hstarted => absurd rfl hstarted⟩ hrun
  exact hboth.1.agreed.joined_iff.mpr hboth.2

theorem joined_exchange : ∃ w, Lts.run (step everywhere) .new exchange = some w ∧
    (w.nodes 1).hwComm.mState = .idle ∧ Joined w := by
  have hends : (Lts.run (step everywhere) .new exchange).map (fun w => (w.nodes 1).hwComm.mState) =
      some .idle := by decide +kernel
  obtain ⟨w, hrun, hidle⟩ := Option.map_eq_some_iff.mp hends
  have hok : Lts.Along (step everywhere)
      (fun w e => w.ForwardsWhole everywhere e ∧ w.JoinsInTime e) .new exchange := by decide +kernel
  exact ⟨w, hrun, hidle, joined_of_run hok hrun⟩

/-! ### Joining too early -/

/-- **Before the `WELCOME` has been handled** it always joins with the address
0, whatever the directory assigns. -/
theorem not_joined_of_not_welcomed {es : List Event} (hrun : Lts.run (step cfg) .new es = some w)
    (hnew : (w.nodes c).welcomed = false) (h : step cfg w (.joinNetwork c) = some w') :
    (w'.nodes c).hwComm = ⟨.idle, 0⟩ ∧ ¬ Joined w' := by
  have hstored := unwelcomed_of_run hrun c hnew
  have hzero : (w.nodes c).registry.myAddr = 0 := congrArg Prod.fst hstored
  cases h
  have hcomm : ((w.setNode c (w.nodes c).joinNetwork).nodes c).hwComm = ⟨.idle, 0⟩ := by
    rw [nodes_setNode_self, Node.joinNetwork, HWComm.joinNetwork, hzero]
    rfl
  refine ⟨hcomm, fun hjoined => ?_⟩
  obtain ⟨n, -, -, hsame, -, hne⟩ := hjoined c (by rw [hcomm]; decide)
  rw [nodes_setNode_self] at hsame
  exact hne ((congrArg Prod.fst hsame).trans hzero)

/-- A client whose middleware is started before it is welcomed. -/
def early : List Event :=
  [.connect 0 0, .register 0, .joinNetwork 0, .write 0 ⟨0, 0, 0⟩ false [.accept 257],
    .dispatch 0 (prompt 0), .read 0 (List.replicate 40 (.ready 40))]

/-- It stores the address 1, is sent what is sent to 1, and discards it. -/
theorem joined_early : ∃ w, Lts.run (step everywhere) .new early = some w ∧
    (w.nodes 0).registry.myAddr = 1 ∧
    (∀ payload source, (w.nodes 0).hwComm.nativeReceivedPacket payload source 1 = none) ∧
    ¬ Joined w := by
  have hends : (Lts.run (step everywhere) .new early).map (fun w => ((w.nodes 0).registry.myAddr,
      (w.nodes 0).hwComm.mState, (w.nodes 0).hwComm.myAddr)) = some (1, .idle, 0) := by decide +kernel
  obtain ⟨w, hrun, hfacts⟩ := Option.map_eq_some_iff.mp hends
  obtain ⟨haddr, hidle, hown⟩ : (w.nodes 0).registry.myAddr = 1 ∧
      (w.nodes 0).hwComm.mState = .idle ∧ (w.nodes 0).hwComm.myAddr = 0 := by
    simpa only [Prod.mk.injEq] using hfacts
  refine ⟨w, hrun, haddr, fun payload source => ?_, fun hjoined => ?_⟩
  · rw [HWComm.nativeReceivedPacket, hown, if_pos (by decide)]
  · obtain ⟨n, -, -, hstored, hassigned, -⟩ := hjoined 0 (by rw [hidle]; decide)
    have hone : n.poNodeAddr = 1 := (congrArg Prod.fst hstored).trans haddr
    rw [hown, hone] at hassigned
    exact absurd hassigned (by decide)

end World

end Pobicos.System
