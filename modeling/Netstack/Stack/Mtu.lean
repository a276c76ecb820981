import Netstack.Stack.Assembled
import Netstack.Stack.Stack

/-! How long the packets are that the stack hands to its channel.

    The write loop splits what is longer than the MTU. The read loop answers an echo request with a
    packet of the same length, and what it answers may have been put together from fragments: the
    replies are the only packets that can be too long, and `mtu_kept_iff` says when. -/

namespace Netstack.Stack
open Netstack.Copy Netstack.Header Netstack.Trace Netstack.Simulation Reassembler

/-! ### What is put together -/

/-- A complete set starts with a fragment at offset zero. -/
theorem complete_head {set : FragmentSet} (h : set.complete = true) :
    ∃ f rest, set.sorted.fragments = f :: rest ∧ f.offset = 0 := by
  rw [FragmentSet.complete] at h
  cases hs : set.sorted.fragments with
  | nil => rw [hs] at h; cases h
  | cons f rest =>
    rw [hs, FragmentSet.contiguous] at h
    split_ifs at h with h0
    all_goals exact ⟨f, rest, rfl, by omega⟩

/-- The datagram of a complete set: the header of the set, as many bytes as announced, and the first
    one from the fragment at offset zero. -/
theorem assemble_facts {set : FragmentSet} {bytes hdr : List UInt8} (hsane : set.Sane)
    (hhdr : set.header = some hdr) (hc : set.complete = true) (hb : set.sorted.assemble = some bytes) :
    bytes.length = hdr.length + set.totalLen.toNat ∧
    IPv4.protocol (bytes.take hdr.length) = IPv4.protocol hdr ∧
    ∃ f ∈ set.fragments, f.offset = 0 ∧ (∀ g ∈ set.fragments, g.offset = 0 → g = f) ∧
      (0 < set.totalLen → ICMPv4.type (bytes.drop hdr.length) = ICMPv4.type f.data) := by
  have hlen := hsane.header hdr hhdr
  rw [ipv4MinHeaderSize] at hlen
  obtain ⟨f, rest, hsorted, h0⟩ := complete_head hc
  have hsane' := kept_sane.sorted hsane
  have hpos := hsane'.pos
  have hapart := hsane'.apart
  rw [hsorted] at hpos hapart
  have hmem : ∀ g, g ∈ set.fragments ↔ g ∈ f :: rest := fun g => by
    rw [← hsorted]
    exact (List.mem_insertionSort _).symm
  have hrest : ∀ g ∈ rest, 1 ≤ g.offset := by
    intro g hg
    have h1 := hpos f (List.mem_cons_self ..)
    have h2 := hpos g (List.mem_cons_of_mem _ hg)
    have h3 := (List.pairwise_cons.1 hapart).1 g hg
    rw [Fragment.Apart] at h3
    omega
  obtain ⟨raw, hcopy, rfl, -, hlen'⟩ := @assemble_eq set.sorted _ _ hhdr hb
  rw [hsorted, FragmentSet.copyAll, h0, Nat.add_zero] at hcopy
  split_ifs at hcopy with hin
  have htake := (copyAll_take (n := hdr.length + 1)
    (fun g hg => by have := hrest g hg; omega) hcopy).1
  have hraw : ipv4MinHeaderSize ≤ raw.length := by rw [ipv4MinHeaderSize, hlen']; omega
  have hget : ∀ j, j < hdr.length + 1 → raw.getD j 0 = (blit (hdr ++ List.replicate set.totalLen.toNat 0)
      hdr.length f.data).getD j 0 := by
    intro j hj
    rw [← getD_take hj, htake, getD_take hj]
    rfl
  refine ⟨?_, ?_, f, (hmem f).2 (List.mem_cons_self ..), h0, ?_, ?_⟩
  · rw [length_finishHeader hraw]
    exact hlen'
  · have hlt : 9 < hdr.length := by omega
    rw [IPv4.protocol, IPv4.protocol, getD_take hlt, getD_finishHeader _ _ (by omega),
      hget 9 (by omega), getD_blit_ne (by omega), List.getD_eq_getElem?_getD, List.getD_eq_getElem?_getD,
      List.getElem?_append_left hlt]
  · intro g hg hg0
    rcases List.mem_cons.1 ((hmem g).1 hg) with rfl | hg
    · rfl
    · have := hrest g hg
      omega
  · intro htot
    have hf := hpos f (List.mem_cons_self ..)
    rw [ICMPv4.type, ICMPv4.type, getD_drop, getD_finishHeader _ _ (by omega), hget _ (by omega)]
    rw [List.getD_eq_getElem?_getD, List.getD_eq_getElem?_getD, Nat.add_zero, blit, List.take_left,
      List.append_assoc, List.getElem?_append_right (le_refl _), Nat.sub_self,
      List.getElem?_append_left (by simp; omega), List.getElem?_take_of_lt (by simp; omega)]

/-! ### Echo requests -/

/-- An echo request. -/
def IsEcho (hdr data : List UInt8) : Prop :=
  IPv4.protocol hdr = icmpv4ProtocolNumber ∧ icmpv4HeaderSize ≤ data.length ∧
    ICMPv4.type data = icmpv4Echo

instance (hdr data : List UInt8) : Decidable (IsEcho hdr data) :=
  inferInstanceAs (Decidable (_ ∧ _ ∧ _))

/-- A set that holds an echo request: its protocol, its announced length and the first byte of its
    first fragment. -/
def FragmentSet.IsEcho (set : FragmentSet) : Prop :=
  IPv4.protocol (set.header.getD []) = icmpv4ProtocolNumber ∧ (icmpv4HeaderSize : ℤ) ≤ set.totalLen ∧
    ∃ frag ∈ set.fragments, frag.offset = 0 ∧ ICMPv4.type frag.data = icmpv4Echo

instance (set : FragmentSet) : Decidable set.IsEcho := inferInstanceAs (Decidable (_ ∧ _ ∧ _))

/-- A packet that the read loop answers is no longer than the MTU: an echo request that comes in one
    piece, or one that its last fragment completes. -/
def EchoFits (s : Stack) : Event → Prop
  | .read raw now order _ =>
    match parsePacket raw with
    | none => True
    | some pb =>
      if isFragment pb then
        match { s.fragments with sets := order }.intake pb now with
        | .dropped _ => True
        | .stored _ _ set => ready set = true → set.IsEcho →
          ((set.header.getD []).length + set.totalLen : ℤ) ≤ s.mtu
      else IsEcho pb.networkHeader pb.data → (pb.networkHeader.length + pb.data.length : ℤ) ≤ s.mtu
  | _ => True

/-- `w` is no longer than the MTU, unless the channel is to segment it. -/
def Write.Fits (w : Write) (mtu : ℤ) : Prop := w.opts = .none → (w.data.length : ℤ) ≤ mtu

theorem length_replyHeader {hdr : List UInt8} (h : ipv4MinHeaderSize ≤ hdr.length) :
    (replyHeader hdr).length = hdr.length := by
  rw [ipv4MinHeaderSize] at h
  dsimp only [replyHeader, IPv4.setSourceAddress, IPv4.setDestinationAddress, IPv4.setTTL,
    IPv4.setChecksum]
  have hset : ∀ (b : List UInt8) (i : ℕ) (src : List UInt8), b.length = hdr.length → i ≤ 20 →
      (blit b i src).length = hdr.length := fun b i src hb hi => (length_blit src (by omega)).trans hb
  exact hset _ _ _ (hset _ _ _ (hset _ _ _ (hset _ _ _ (hset _ _ _ rfl (by omega)) (by omega)) (by omega))
    (by omega)) (by omega)

theorem length_replyData {data : List UInt8} (h : icmpv4HeaderSize ≤ data.length) :
    (replyData data).length = data.length := by
  rw [icmpv4HeaderSize] at h
  dsimp only [replyData, ICMPv4.setType, ICMPv4.setChecksum]
  have hset : ∀ (b : List UInt8) (i : ℕ) (src : List UInt8), b.length = data.length → i ≤ 8 →
      (blit b i src).length = data.length := fun b i src hb hi => (length_blit src (by omega)).trans hb
  exact hset _ _ _ (hset _ _ _ (hset _ _ _ rfl (by omega)) (by omega)) (by omega)

/-- What a turn of a loop adds to what has been written. -/
structure Writes (s s' : Stack) (ws : List Write) : Prop where
  mtu : s'.mtu = s.mtu
  written : s'.written = s.written ++ ws

/-- The reply to an echo request is as long as the request, and nothing else is written. -/
theorem dispatch_writes (s : Stack) {hdr : List UInt8} (data : List UInt8)
    (hhdr : ipv4MinHeaderSize ≤ hdr.length) : (s.dispatch hdr data).fragments = s.fragments ∧
    (s.dispatch hdr data).outboundCh = s.outboundCh ∧ ∃ ws, Writes s (s.dispatch hdr data) ws ∧
      ((∀ w ∈ ws, w.Fits s.mtu) ↔ (IsEcho hdr data → (hdr.length + data.length : ℤ) ≤ s.mtu)) := by
  have hsilent : ¬IsEcho hdr data → ((∀ w ∈ ([] : List Write), w.Fits s.mtu) ↔
      (IsEcho hdr data → (hdr.length + data.length : ℤ) ≤ s.mtu)) :=
    fun hecho => iff_of_true (by simp) fun h => absurd h hecho
  have hsame : Writes s s [] := ⟨rfl, (List.append_nil _).symm⟩
  rw [dispatch]
  split_ifs with hproto hmem
  · rw [handleICMP]
    split_ifs with hshort htype
    · exact ⟨rfl, rfl, [], hsame, hsilent fun h => absurd h.2.1 (by omega)⟩
    · exact ⟨rfl, rfl, [], hsame, hsilent fun h => htype h.2.2⟩
    · have hecho : IsEcho hdr data := ⟨hproto, by omega, not_not.1 htype⟩
      refine ⟨rfl, rfl, _, ⟨rfl, rfl⟩, ?_⟩
      rw [List.forall_mem_singleton, Write.Fits, List.length_append, length_replyHeader hhdr,
        length_replyData hecho.2.1]
      exact ⟨fun h _ => by exact_mod_cast h rfl, fun h _ => by exact_mod_cast h hecho⟩
  · exact ⟨rfl, rfl, [], ⟨rfl, (List.append_nil _).symm⟩, hsilent fun h => hproto h.1⟩
  · exact ⟨rfl, rfl, [], hsame, hsilent fun h => hproto h.1⟩

/-- The datagram of a ready set is an echo request if the set holds one. -/
theorem isEcho_assembled {set : FragmentSet} {bytes : List UInt8} (hsane : set.Sane)
    (hready : ready set = true) (hb : set.sorted.assemble = some bytes) :
    ipv4MinHeaderSize ≤ (bytes.take (set.header.getD []).length).length ∧
    ((bytes.take (set.header.getD []).length).length + (bytes.drop (set.header.getD []).length).length : ℤ)
      = (set.header.getD []).length + set.totalLen ∧
    (IsEcho (bytes.take (set.header.getD []).length) (bytes.drop (set.header.getD []).length) ↔
      set.IsEcho) := by
  rw [ready, Bool.and_eq_true, Bool.and_eq_true, decide_eq_true_eq] at hready
  obtain ⟨⟨htotal, hsome⟩, hc⟩ := hready
  obtain ⟨hdr, hhdr⟩ := Option.isSome_iff_exists.1 hsome
  have hlen := hsane.header hdr hhdr
  obtain ⟨hbytes, hproto, f, hf, hf0, huniq, htype⟩ := assemble_facts hsane hhdr hc hb
  rw [IsEcho, FragmentSet.IsEcho, hhdr, Option.getD_some, List.length_take, List.length_drop, hproto]
  refine ⟨by omega, by omega, and_congr_right fun _ => ?_⟩
  rw [icmpv4HeaderSize]
  constructor
  · rintro ⟨hle, he⟩
    exact ⟨by omega, f, hf, hf0, by rw [← htype (by omega)]; exact he⟩
  · rintro ⟨hle, g, hg, hg0, he⟩
    rw [huniq g hg hg0] at he
    exact ⟨by omega, by rw [htype (by omega)]; exact he⟩

/-- Every pending set is in order. -/
def Orderly (s : Stack) : Prop := ∀ e ∈ s.fragments.sets, e.2.Sane

/-- What a turn of the read loop writes. -/
theorem read_writes {s s' : Stack} {raw : List UInt8} {now : ℤ} {order : List (FragmentKey × FragmentSet)}
    {hraw : raw.length ≤ maxPacketSize} (ho : Orderly s) (h : s.read raw now order = some s') :
    Orderly s' ∧ s'.outboundCh = s.outboundCh ∧ ∃ ws, Writes s s' ws ∧
      ((∀ w ∈ ws, w.Fits s.mtu) ↔ EchoFits s (.read raw now order hraw)) := by
  rw [read] at h
  rw [EchoFits]
  cases hparse : parsePacket raw with
  | none =>
    rw [hparse] at h
    cases h
    exact ⟨ho, rfl, [], ⟨rfl, (List.append_nil _).symm⟩, iff_of_true (by simp) trivial⟩
  | some pb =>
    rw [hparse] at h
    dsimp only at h ⊢
    split_ifs at h with hfrag hperm
    · rw [if_pos hfrag]
      have horder : ∀ e ∈ { s.fragments with sets := order }.sets, e.2.Sane :=
        fun e he => ho e (hperm.mem_iff.1 he)
      have hin := @Kept.intake _ pb now _ _ kept_sane trivial horder
      cases hproc : { s.fragments with sets := order }.process pb now with
      | none => rw [hproc] at h; cases h
      | some res =>
        obtain ⟨r', out⟩ := res
        have hsets := kept_sane.process trivial horder hproc
        have hout := process_out hproc
        rw [hproc] at h
        rw [headerLen] at h
        cases hi : { s.fragments with sets := order }.intake pb now with
        | dropped r₁ =>
          rw [hi] at hout
          subst hout
          cases h
          exact ⟨hsets, rfl, [], ⟨rfl, (List.append_nil _).symm⟩, iff_of_true (by simp) trivial⟩
        | stored r₁ key set =>
          rw [hi] at hout hin h
          rcases hout with ⟨hready, hsome, hasm⟩ | ⟨hready, rfl⟩
          · obtain ⟨bytes, rfl⟩ := Option.isSome_iff_exists.1 hsome
            obtain ⟨hhdr, hlen, hecho⟩ := isEcho_assembled hin.2 hready hasm.symm
            cases h
            obtain ⟨hf, hq, ws, hws, hiff⟩ := dispatch_writes { s with fragments := r' }
              (bytes.drop (set.header.getD []).length) hhdr
            refine ⟨fun e he => hsets e (by rw [hf] at he; exact he), hq, ws, ⟨hws.mtu, hws.written⟩, ?_⟩
            rw [hlen, hecho] at hiff
            exact hiff.trans ⟨fun h _ => h, fun h => h hready⟩
          · cases h
            refine ⟨hsets, rfl, [], ⟨rfl, (List.append_nil _).symm⟩, iff_of_true (by simp) fun hr => ?_⟩
            rw [hready] at hr
            cases hr
    · rw [if_neg hfrag]
      cases h
      obtain ⟨hf, hws⟩ := dispatch_writes s pb.data pb.header_len
      exact ⟨fun e he => ho e (by rw [hf] at he; exact he), hws⟩

/-! ### The write loop -/

theorem foldl_writes (s : Stack) (frags : List (List UInt8)) :
    Writes s (frags.foldl writeWirePacket s) (frags.map fun frag => ⟨frag, .none⟩) := by
  induction frags generalizing s with
  | nil => exact ⟨rfl, (List.append_nil _).symm⟩
  | cons frag frags ih =>
    obtain ⟨hm, hw⟩ := ih (s.writeWirePacket frag)
    exact ⟨hm, by rw [List.foldl_cons, hw, writeWirePacket, channelWrite, List.append_assoc]; rfl⟩

theorem foldl_kept (s : Stack) (frags : List (List UInt8)) :
    (frags.foldl writeWirePacket s).fragments = s.fragments ∧
      (frags.foldl writeWirePacket s).outboundCh = s.outboundCh := by
  induction frags generalizing s with
  | nil => exact ⟨rfl, rfl⟩
  | cons frag frags ih => exact ih (s.writeWirePacket frag)

/-- A packet that does not fit is written in fragments that do. -/
theorem writePacket_writes (s : Stack) (data : List UInt8) (hmtu : 0 < s.mtu) :
    (s.writePacket data).fragments = s.fragments ∧ (s.writePacket data).outboundCh = s.outboundCh ∧
    ∃ ws, Writes s (s.writePacket data) ws ∧ ∀ w ∈ ws, w.Fits s.mtu := by
  rw [writePacket]
  split_ifs with hfits
  · refine ⟨rfl, rfl, [⟨data, .none⟩], ⟨rfl, rfl⟩, ?_⟩
    rw [List.forall_mem_singleton]
    exact fun _ => hfits.resolve_left (by omega)
  · cases hf : fragmentIPv4Packet data s.mtu with
    | none => exact ⟨rfl, rfl, [], ⟨rfl, (List.append_nil _).symm⟩, by simp⟩
    | some frags =>
      obtain ⟨h1, h2⟩ := foldl_kept s frags
      refine ⟨h1, h2, _, foldl_writes s frags, fun w hw _ => ?_⟩
      obtain ⟨frag, hfrag, rfl⟩ := List.mem_map.1 hw
      exact length_fragment_le hf frag hfrag

/-- Every packet in the queue that is not to be split has offload options. -/
def Offloaded (s : Stack) : Prop := ∀ item ∈ s.outboundCh, ∀ data opts, item = .gso data opts → opts ≠ .none

/-- What holds of the state throughout. -/
structure Sound (s : Stack) : Prop where
  orderly : Orderly s
  offloaded : Offloaded s
  mtu : 0 < s.mtu

theorem enqueue_sound {s s' : Stack} {item : OutboundItem} {sent : Bool} (h : Sound s)
    (hitem : ∀ data opts, item = .gso data opts → opts ≠ .none) (he : s.enqueue item sent = some s') :
    Sound s' ∧ Writes s s' [] := by
  rw [enqueue] at he
  split_ifs at he
  · cases he
    refine ⟨⟨h.orderly, fun i hi => ?_, h.mtu⟩, rfl, (List.append_nil _).symm⟩
    rcases List.mem_append.1 hi with hi | hi
    · exact h.offloaded i hi
    · rw [List.mem_singleton.1 hi]
      exact hitem
  · cases he
    exact ⟨⟨h.orderly, h.offloaded, h.mtu⟩, rfl, (List.append_nil _).symm⟩

/-- What one step writes fits the MTU exactly if it answers no echo request that does not. -/
theorem step_writes {s s' : Stack} {e : Event} (h : Sound s) (hs : step s e = some s') :
    Sound s' ∧ ∃ ws, Writes s s' ws ∧ ((∀ w ∈ ws, w.Fits s.mtu) ↔ EchoFits s e) := by
  have hsilent : ∀ {s' : Stack}, Sound s' ∧ Writes s s' [] → Sound s' ∧ ∃ ws, Writes s s' ws ∧
      ((∀ w ∈ ws, w.Fits s.mtu) ↔ True) := fun ⟨h1, h2⟩ => ⟨h1, [], h2, iff_of_true (by simp) trivial⟩
  have hsame : Sound s ∧ Writes s s [] := ⟨h, rfl, (List.append_nil _).symm⟩
  cases e with
  | read raw now order hraw =>
    obtain ⟨ho, hq, ws, hws, hiff⟩ := @read_writes s s' raw now order hraw h.orderly hs
    refine ⟨⟨ho, ?_, by rw [hws.mtu]; exact h.mtu⟩, ws, hws, hiff⟩
    rw [Offloaded, hq]
    exact h.offloaded
  | sendPacket segment src dst proto sent =>
    rw [step, sendPacket] at hs
    split_ifs at hs
    · cases hs
      exact hsilent hsame
    · exact hsilent (enqueue_sound h (fun _ _ he => by cases he) hs)
  | sendPacketGSO segment src dst proto opts sent hopts =>
    rw [step, sendPacketGSO] at hs
    split_ifs at hs
    · cases hs
      exact hsilent hsame
    · refine hsilent (enqueue_sound h (fun data opts' he => ?_) hs)
      cases he
      exact hopts
  | write =>
    rw [step, write.eq_def] at hs
    split at hs
    · cases hs
    · rename_i data opts rest hq
      have hopts : opts ≠ .none := h.offloaded _ (by rw [hq]; exact List.mem_cons_self ..) data opts rfl
      have hrest : ∀ item ∈ rest, ∀ data opts, item = .gso data opts → opts ≠ .none :=
        fun item hi => h.offloaded item (by rw [hq]; exact List.mem_cons_of_mem _ hi)
      rw [writeGSOItem] at hs
      split_ifs at hs
      · cases hs
        refine ⟨⟨h.orderly, hrest, h.mtu⟩, [⟨data, opts⟩], ⟨rfl, rfl⟩, iff_of_true ?_ trivial⟩
        rw [List.forall_mem_singleton]
        exact fun hnone => absurd hnone hopts
      · cases hs
        exact hsilent ⟨⟨h.orderly, hrest, h.mtu⟩, rfl, (List.append_nil _).symm⟩
    · rename_i data rest hq
      have hrest : ∀ item ∈ rest, ∀ data opts, item = .gso data opts → opts ≠ .none :=
        fun item hi => h.offloaded item (by rw [hq]; exact List.mem_cons_of_mem _ hi)
      cases hs
      obtain ⟨hf, hq', ws, hws, hfits⟩ := writePacket_writes { s with outboundCh := rest } data h.mtu
      refine ⟨⟨fun e he => h.orderly e (by rw [hf] at he; exact he), ?_, by rw [hws.mtu]; exact h.mtu⟩,
        ws, ⟨hws.mtu, hws.written⟩, iff_of_true hfits trivial⟩
      rw [Offloaded, hq']
      exact hrest
  | stop =>
    cases hs
    exact hsilent ⟨⟨h.orderly, h.offloaded, h.mtu⟩, rfl, (List.append_nil _).symm⟩

/-- What has been written stays written. -/
theorem written_run {s s' : Stack} {es : List Event} {ok : Stack → Event → Prop} (hr : Run step ok s es s')
    (h : Sound s) : s'.mtu = s.mtu ∧ s.written ⊆ s'.written := by
  induction hr with
  | nil s => exact ⟨rfl, List.Subset.refl _⟩
  | cons _ hstep _ ih =>
    obtain ⟨h₁, ws, hws, _⟩ := step_writes h hstep
    obtain ⟨hmtu, hsub⟩ := ih h₁
    refine ⟨hmtu.trans hws.mtu, fun w hw => hsub ?_⟩
    rw [hws.written]
    exact List.mem_append_left _ hw

/-- From a state in which all that has been written fits. -/
theorem run_writes_iff {s s' : Stack} {es : List Event} (hr : Run step (fun _ _ => True) s es s') :
    Sound s → (∀ w ∈ s.written, w.Fits s.mtu) →
    ((∀ w ∈ s'.written, w.Fits s.mtu) ↔ Run step EchoFits s es s') := by
  induction hr with
  | nil s => exact fun _ hfits => iff_of_true hfits (.nil s)
  | @cons s s₁ s' e es _ hstep hrest ih =>
    intro hs hfits
    obtain ⟨hs₁, ws, hws, hiff⟩ := step_writes hs hstep
    have hsplit : (∀ w ∈ s₁.written, w.Fits s.mtu) ↔ EchoFits s e := by
      rw [← hiff, hws.written]
      exact ⟨fun h w hw => h w (List.mem_append_right _ hw),
        fun h => List.forall_mem_append.2 ⟨hfits, h⟩⟩
    constructor
    · intro hall
      have h₁ : ∀ w ∈ s₁.written, w.Fits s.mtu := fun w hw => hall w ((written_run hrest hs₁).2 hw)
      rw [← hws.mtu] at h₁ hall
      exact .cons (hsplit.1 (by rw [← hws.mtu]; exact h₁)) hstep ((ih hs₁ h₁).1 hall)
    · rintro (_ | ⟨hok, hstep', hrest'⟩)
      rw [hstep] at hstep'
      cases hstep'
      have h₁ := hsplit.2 hok
      rw [← hws.mtu] at h₁ ⊢
      exact (ih hs₁ h₁).2 hrest'

theorem Init.sound {s : Stack} (h : Init s) (hmtu : 0 < s.mtu) : Sound s ∧ s.written = [] := by
  obtain ⟨mtu, gsoOK, ttl, queueSize, handlers, h⟩ := h
  rw [newStack] at h
  split_ifs at h
  cases h
  exact ⟨⟨fun _ he => absurd he List.not_mem_nil, fun _ hi => absurd hi List.not_mem_nil, hmtu⟩, rfl⟩

/-- CORRECT: in a run from a new stack, every packet handed to the channel without offload options
    is at most as long as the MTU exactly if every step of the run meets `EchoFits`. -/
theorem mtu_kept_iff {s₀ s : Stack} {es : List Event} (h₀ : Init s₀) (hmtu : 68 ≤ s₀.mtu)
    (hr : Run step (fun _ _ => True) s₀ es s) :
    (∀ w ∈ s.written, w.opts = .none → (w.data.length : ℤ) ≤ s₀.mtu) ↔ Run step EchoFits s₀ es s := by
  obtain ⟨hsound, hw⟩ := h₀.sound (by omega)
  refine run_writes_iff hr hsound fun w hmem => ?_
  rw [hw] at hmem
  cases hmem

/-- A stack without transport handlers on a channel with an MTU of 68. -/
def sample : Stack :=
  { mtu := 68, gsoOK := false, ttl := 64, queueSize := 16, handlers := [], ipv4ID := 0, outboundCh := [],
    fragments := newIPv4Reassembler, done := false, written := [], delivered := [] }

theorem init_sample : Init sample := ⟨68, false, 64, 16, [], rfl⟩

theorem mtu_kept_sample : ∃ s, Run step (fun _ _ => True) sample
    [.sendPacket (List.replicate 100 1) 1 2 17 true, .write] s ∧ s.written.length = 3 ∧
    ((∀ w ∈ s.written, w.opts = .none → (w.data.length : ℤ) ≤ sample.mtu) ↔
      Run step EchoFits sample [.sendPacket (List.replicate 100 1) 1 2 17 true, .write] s) := by
  obtain ⟨s, hr, hlen⟩ := exists_run_exec step (fun _ _ => True) sample
    [.sendPacket (List.replicate 100 1) 1 2 17 true, .write] (fun s => s.written.length = 3)
    (by decide +kernel)
  exact ⟨s, hr, hlen, mtu_kept_iff init_sample (by decide) hr⟩

/-- The two fragments of an echo request of 80 bytes. -/
def sampleEcho : List (List UInt8) :=
  let segment := icmpv4Echo :: List.replicate 59 0
  (fragmentIPv4Packet (sample.ipHeader segment 1 2 icmpv4ProtocolNumber ++ segment) 68).getD []

/-- The reassembler after the first of them. -/
def sampleHalf : List (FragmentKey × FragmentSet) :=
  ((sample.read (sampleEcho.getD 0 []) 0 []).getD sample).fragments.sets

/-- The two fragments come in, each of at most 68 bytes; the reply goes out in one packet of 80. -/
theorem echo_reply_too_long : ∃ s, Run step (fun _ _ => True) sample
    [.read (sampleEcho.getD 0 []) 0 [] (by decide +kernel),
      .read (sampleEcho.getD 1 []) 0 sampleHalf (by decide +kernel)] s ∧
    (∀ frag ∈ sampleEcho, (frag.length : ℤ) ≤ sample.mtu) ∧
    ∃ w ∈ s.written, w.opts = .none ∧ sample.mtu < (w.data.length : ℤ) := by
  obtain ⟨s, hr, hw⟩ := exists_run_exec step (fun _ _ => True) sample
    [.read (sampleEcho.getD 0 []) 0 [] (by decide +kernel),
      .read (sampleEcho.getD 1 []) 0 sampleHalf (by decide +kernel)]
    (fun s => ∃ w ∈ s.written, w.opts = .none ∧ sample.mtu < (w.data.length : ℤ)) (by decide +kernel)
  exact ⟨s, hr, by decide +kernel, hw⟩

end Netstack.Stack
