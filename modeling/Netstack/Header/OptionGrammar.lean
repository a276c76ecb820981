import Netstack.Header.Fields
import Netstack.Header.Tcp

/-! The option parsers against the grammar of TCP options (`header/tcp.go`).

    An option area is a sequence of options, NOP or kind, length and value, and then something that
    ends the parse: nothing, EOL, or an option that is cut short or claims a length below two. Both
    parsers return the fold of what they recognise over the options before that end.

    The parsers are given a second time as they stand in the source, an index into the bytes and a
    read at each use, where a read past the end is a panic. That never happens. -/

namespace Netstack.Header

/-! ### The loops as written: an index into the option bytes -/

/-- `binary.BigEndian.Uint16(opts[i:])`, with its bounds check. -/
def readUint16 (opts : List UInt8) (i : ℕ) : Option UInt16 :=
  if i + 2 ≤ opts.length then some (uint16At opts i) else none

/-- `binary.BigEndian.Uint32(opts[i:])`, with its bounds check. -/
def readUint32 (opts : List UInt8) (i : ℕ) : Option UInt32 :=
  if i + 4 ≤ opts.length then some (uint32At opts i) else none

/-- The loop of the parsers from index `i`; `none` is a panic, or a loop that goes on for ever. -/
def scanOptions {α : Type} (switch : α → UInt8 → ℕ → ℕ → Option α) (opts : List UInt8) :
    ℕ → ℕ → α → Option α
  | 0, _, _ => none
  | fuel + 1, i, acc =>
    if i < opts.length then do
      let kind ← opts[i]?
      if kind = tcpOptionEOL then some acc
      else if kind = tcpOptionNOP then scanOptions switch opts fuel (i + 1) acc
      else if i + 1 ≥ opts.length then some acc
      else do
        let optLen := (← opts[i + 1]?).toNat
        if optLen < 2 ∨ i + optLen > opts.length then some acc
        else do
          let acc ← switch acc kind optLen i
          scanOptions switch opts fuel (i + optLen) acc
    else some acc

/-- The switch of `ParseSynOptions` on the option at `i`. -/
def synOptionAt (opts : List UInt8) (so : SynOptions) (kind : UInt8) (optLen i : ℕ) :
    Option SynOptions :=
  if kind = tcpOptionMSS then
    if optLen = tcpOptionMSSLength then do
      let mss ← readUint16 opts (i + 2)
      some { so with mss := mss }
    else some so
  else if kind = tcpOptionWS then
    if optLen = tcpOptionWSLength then do
      let ws ← opts[i + 2]?
      some { so with ws := (min ws.toNat maxWndScale : ℕ) }
    else some so
  else if kind = tcpOptionSACKPermitted then
    if optLen = tcpOptionSACKPermittedLength then some { so with sackPermit := true } else some so
  else if kind = tcpOptionTS then
    if optLen = tcpOptionTSLength then do
      let tsVal ← readUint32 opts (i + 2)
      some { so with tsEnabled := true, tsVal := tsVal }
    else some so
  else some so

/-- One turn of the block loop of `ParseSegmentOptions`. -/
def sackBlockAt (opts : List UInt8) (off : ℕ) : Option SACKBlock := do
  let start ← readUint32 opts off
  let stop ← readUint32 opts (off + 4)
  some ⟨start, stop⟩

/-- The switch of `ParseSegmentOptions` on the option at `i`. -/
def segmentOptionAt (opts : List UInt8) (so : SegmentOptions) (kind : UInt8) (optLen i : ℕ) :
    Option SegmentOptions :=
  if kind = tcpOptionSACK then
    if (optLen - 2) % 8 = 0 then do
      let blocks ← (List.range (min ((optLen - 2) / 8) tcpMaxSACKBlocks)).mapM fun j =>
        sackBlockAt opts (i + 2 + j * 8)
      some { so with sackBlocks := blocks }
    else some so
  else if kind = tcpOptionTS then
    if optLen = tcpOptionTSLength then do
      let tsVal ← readUint32 opts (i + 2)
      let tsEcr ← readUint32 opts (i + 6)
      some { so with tsEnabled := true, tsVal := tsVal, tsEcr := tsEcr }
    else some so
  else some so

/-- `SynOptions{WS: -1}`. -/
def SynOptions.zero : SynOptions :=
  { mss := 0, ws := -1, sackPermit := false, tsEnabled := false, tsVal := 0 }

/-- The zero `SegmentOptions`. -/
def SegmentOptions.zero : SegmentOptions :=
  { sackBlocks := [], tsEnabled := false, tsVal := 0, tsEcr := 0 }

/-- `ParseSynOptions`, index by index. -/
def scanSynOptions (opts : List UInt8) : Option SynOptions :=
  scanOptions (synOptionAt opts) opts (opts.length + 1) 0 .zero

/-- `ParseSegmentOptions`, index by index. -/
def scanSegmentOptions (opts : List UInt8) : Option SegmentOptions :=
  scanOptions (segmentOptionAt opts) opts (opts.length + 1) 0 .zero

/-! ### No read is out of bounds -/

section
variable {opts : List UInt8} {i optLen : ℕ}

theorem readUint16_eq (h : i + optLen ≤ opts.length) {k : ℕ} (hk : k + 2 ≤ optLen) :
    readUint16 opts (i + k) = some (uint16At ((opts.drop i).take optLen) k) := by
  rw [readUint16, if_pos (by omega), uint16At_take hk, uint16At, uint16At, getD_drop, getD_drop]
  rfl

theorem readUint32_eq (h : i + optLen ≤ opts.length) {k : ℕ} (hk : k + 4 ≤ optLen) :
    readUint32 opts (i + k) = some (uint32At ((opts.drop i).take optLen) k) := by
  rw [readUint32, if_pos (by omega), uint32At_take hk, uint32At, uint32At, getD_drop, getD_drop,
    getD_drop, getD_drop]
  rfl

theorem getElem?_eq_getD_take (h : i + optLen ≤ opts.length) {k : ℕ} (hk : k < optLen) :
    opts[i + k]? = some (((opts.drop i).take optLen).getD k 0) := by
  rw [getD_take hk, getD_drop, List.getD_eq_getElem?_getD, List.getElem?_eq_getElem (by omega)]
  rfl

theorem mapM_eq_some {α β : Type} {f : α → Option β} {g : α → β} :
    ∀ {l : List α}, (∀ x ∈ l, f x = some (g x)) → l.mapM f = some (l.map g)
  | [], _ => rfl
  | x :: l, h => by
    rw [List.mapM_cons, h x List.mem_cons_self, mapM_eq_some fun y hy => h y (.tail _ hy)]
    rfl

theorem sackBlockAt_eq (h : i + optLen ≤ opts.length) {j : ℕ} (hj : 2 + j * 8 + 8 ≤ optLen) :
    sackBlockAt opts (i + 2 + j * 8) =
      some ⟨uint32At ((opts.drop i).take optLen) (2 + j * 8),
        uint32At ((opts.drop i).take optLen) (2 + j * 8 + 4)⟩ := by
  rw [sackBlockAt, Nat.add_assoc, readUint32_eq h (by omega), Nat.add_assoc,
    readUint32_eq h (by omega)]
  rfl

/-- The reads of `ParseSynOptions` stay inside the option its length check has admitted. -/
theorem synOptionAt_eq (h : i + optLen ≤ opts.length) (so : SynOptions) (kind : UInt8) :
    synOptionAt opts so kind optLen i
      = some (synOption so kind optLen ((opts.drop i).take optLen)) := by
  rw [synOptionAt, synOption]
  split_ifs with hmss hl hws hl hsack hl hts hl
  · rw [readUint16_eq h (by rw [hl]; decide)]; rfl
  · rfl
  · rw [getElem?_eq_getD_take h (by rw [hl]; decide)]; rfl
  · rfl
  · rfl
  · rfl
  · rw [readUint32_eq h (by rw [hl]; decide)]; rfl
  · rfl
  · rfl

/-- The reads of `ParseSegmentOptions` stay inside the option its length check has admitted. -/
theorem segmentOptionAt_eq (h : i + optLen ≤ opts.length) (h2 : 2 ≤ optLen) (so : SegmentOptions)
    (kind : UInt8) : segmentOptionAt opts so kind optLen i
      = some (segmentOption so kind optLen ((opts.drop i).take optLen)) := by
  rw [segmentOptionAt, segmentOption]
  split_ifs with hsack hl hts hl
  · rw [mapM_eq_some fun j hj => sackBlockAt_eq h (by have := List.mem_range.1 hj; omega)]; rfl
  · rfl
  · rw [readUint32_eq h (by rw [hl]; decide), readUint32_eq h (by rw [hl]; decide)]; rfl
  · rfl
  · rfl

/-- The index loop is the loop over the bytes left, and ends. -/
theorem scanOptions_eq {α : Type} {switch : α → UInt8 → ℕ → ℕ → Option α}
    {handle : α → UInt8 → ℕ → List UInt8 → α}
    (hswitch : ∀ (acc : α) (kind : UInt8) (optLen i : ℕ), 2 ≤ optLen → i + optLen ≤ opts.length →
      switch acc kind optLen i = some (handle acc kind optLen ((opts.drop i).take optLen))) :
    ∀ (fuel i : ℕ) (acc : α), i ≤ opts.length → opts.length < i + fuel →
      scanOptions switch opts fuel i acc
        = some (parseOptions handle (opts.drop i).length (opts.drop i) acc)
  | 0, i, _, hi, hfuel => by omega
  | fuel + 1, i, acc, hi, hfuel => by
    have ih := scanOptions_eq hswitch fuel
    rw [scanOptions]
    cases hd : opts.drop i with
    | nil =>
      have hend : opts.length ≤ i := List.drop_eq_nil_iff.1 hd
      rw [if_neg (by omega)]
      rfl
    | cons kind rest =>
      have hlt : i < opts.length := by
        by_contra hge
        rw [List.drop_eq_nil_of_le (by omega)] at hd
        cases hd
      have hrest : rest = opts.drop (i + 1) := by
        rw [← List.drop_drop, hd]
        rfl
      have hkind : opts[i]? = some kind := by
        rw [← Nat.add_zero i, ← List.getElem?_drop, hd]
        rfl
      rw [if_pos hlt, hkind, List.length_cons, parseOptions_cons]
      simp only [Option.bind_eq_bind, Option.bind_some]
      split_ifs with h0 h1 hone
      · rfl
      · rw [ih (i + 1) acc hlt (by omega), ← hrest]
      · -- a kind with nothing behind it
        rw [hrest, List.drop_eq_nil_of_le hone]
      · cases hr : rest with
        | nil =>
          have : opts.length ≤ i + 1 := List.drop_eq_nil_iff.1 (hrest.symm.trans hr)
          omega
        | cons lenByte body =>
          have hlen : opts[i + 1]? = some lenByte := by
            rw [← Nat.add_zero (i + 1), ← List.getElem?_drop, ← hrest, hr]
            rfl
          have hl : (kind :: lenByte :: body).length = opts.length - i := by
            rw [← hr, ← hd, List.length_drop]
          rw [hlen]
          simp only [Option.bind_some, hl]
          by_cases hbad : lenByte.toNat < 2 ∨ i + lenByte.toNat > opts.length
          · rw [if_pos hbad, if_pos (by omega)]
          · rw [if_neg hbad, if_neg (by omega), hswitch _ _ _ _ (by omega) (by omega)]
            simp only [Option.bind_some]
            have hdrop : (kind :: lenByte :: body).drop lenByte.toNat = opts.drop (i + lenByte.toNat) := by
              rw [← List.drop_drop, hd, hr]
            rw [ih _ _ (by omega) (by omega), hdrop, hd, hr]
            exact congrArg some (parseOptions_fuel _ (by
              have := congrArg List.length hdrop
              simp only [List.length_drop, List.length_cons] at this hl ⊢
              omega)).symm

theorem scanSynOptions_eq (opts : List UInt8) : scanSynOptions opts = some (parseSynOptions opts) :=
  scanOptions_eq (fun acc kind _ _ _ h => synOptionAt_eq h acc kind)
    (opts.length + 1) 0 .zero (Nat.zero_le _) (by omega)

theorem scanSegmentOptions_eq (opts : List UInt8) :
    scanSegmentOptions opts = some (parseSegmentOptions opts) :=
  scanOptions_eq (fun acc kind _ _ h2 h => segmentOptionAt_eq h h2 acc kind)
    (opts.length + 1) 0 .zero (Nat.zero_le _) (by omega)

end

/-! ### The grammar -/

/-- A well-formed option: NOP, or kind, length and value. EOL and NOP have no length. -/
inductive TCPOption where
  | nop
  | tlv (kind : UInt8) (value : List UInt8) (not_eol : kind ≠ tcpOptionEOL)
    (not_nop : kind ≠ tcpOptionNOP) (short : value.length + 2 < 256)

/-- The bytes of an option. -/
def TCPOption.bytes : TCPOption → List UInt8
  | .nop => [tcpOptionNOP]
  | .tlv kind value _ _ _ => kind :: UInt8.ofNat (value.length + 2) :: value

/-- What may stand behind the last option of an area: nothing, EOL and anything, a kind alone, an
    option longer than the area, or one whose length does not cover its own two bytes. -/
inductive EndsOptions : List UInt8 → Prop
  | nothing : EndsOptions []
  | eol (rest : List UInt8) : EndsOptions (tcpOptionEOL :: rest)
  | bare (kind : UInt8) (not_eol : kind ≠ tcpOptionEOL) (not_nop : kind ≠ tcpOptionNOP) :
      EndsOptions [kind]
  | truncated (kind lenByte : UInt8) (rest : List UInt8) (not_eol : kind ≠ tcpOptionEOL)
      (not_nop : kind ≠ tcpOptionNOP) (h : rest.length + 2 < lenByte.toNat) :
      EndsOptions (kind :: lenByte :: rest)
  | short (kind lenByte : UInt8) (rest : List UInt8) (not_eol : kind ≠ tcpOptionEOL)
      (not_nop : kind ≠ tcpOptionNOP) (h : lenByte.toNat < 2) : EndsOptions (kind :: lenByte :: rest)

/-- The number big-endian bytes stand for. -/
def bigEndian (bytes : List UInt8) : ℕ := bytes.foldl (fun n b => 256 * n + b.toNat) 0

/-- The value of a SACK option, eight bytes a block. -/
def blocksOf : List UInt8 → List SACKBlock
  | a :: b :: c :: d :: e :: f :: g :: h :: rest =>
    ⟨UInt32.ofNat (bigEndian [a, b, c, d]), UInt32.ofNat (bigEndian [e, f, g, h])⟩ :: blocksOf rest
  | _ => []

/-- What an option says on a SYN. A recognised kind with another length says nothing. -/
def TCPOption.onSyn (so : SynOptions) : TCPOption → SynOptions
  | .nop => so
  | .tlv kind value _ _ _ =>
    if kind = tcpOptionMSS then
      if value.length = 2 then { so with mss := UInt16.ofNat (bigEndian value) } else so
    else if kind = tcpOptionWS then
      if value.length = 1 then { so with ws := (min (bigEndian value) 14 : ℕ) } else so
    else if kind = tcpOptionSACKPermitted then
      if value.length = 0 then { so with sackPermit := true } else so
    else if kind = tcpOptionTS then
      if value.length = 8 then
        { so with tsEnabled := true, tsVal := UInt32.ofNat (bigEndian (value.take 4)) }
      else so
    else so

/-- What an option says on any other segment: at most four SACK blocks, or a timestamp. -/
def TCPOption.onSegment (so : SegmentOptions) : TCPOption → SegmentOptions
  | .nop => so
  | .tlv kind value _ _ _ =>
    if kind = tcpOptionSACK then
      if value.length % 8 = 0 then { so with sackBlocks := (blocksOf value).take 4 } else so
    else if kind = tcpOptionTS then
      if value.length = 8 then
        { so with
          tsEnabled := true
          tsVal := UInt32.ofNat (bigEndian (value.take 4))
          tsEcr := UInt32.ofNat (bigEndian (value.drop 4)) }
      else so
    else so

/-! ### What the switches read is what the options say -/

theorem uint16At_eq_bigEndian (b : List UInt8) (i : ℕ) :
    uint16At b i = UInt16.ofNat (bigEndian [b.getD i 0, b.getD (i + 1) 0]) := by
  have hlt := (uint16At b i).toNat_lt
  refine UInt16.toNat_inj.1 ?_
  rw [UInt16.toNat_ofNat', bigEndian]
  simp only [List.foldl_cons, List.foldl_nil]
  rw [toNat_uint16At] at hlt ⊢
  omega

theorem uint32At_eq_bigEndian (b : List UInt8) (i : ℕ) : uint32At b i
    = UInt32.ofNat (bigEndian [b.getD i 0, b.getD (i + 1) 0, b.getD (i + 2) 0, b.getD (i + 3) 0]) := by
  have hlt := (uint32At b i).toNat_lt
  refine UInt32.toNat_inj.1 ?_
  rw [UInt32.toNat_ofNat', bigEndian]
  simp only [List.foldl_cons, List.foldl_nil]
  rw [toNat_uint32At] at hlt ⊢
  omega

/-- Reading behind the kind and the length. -/
theorem uint32At_value (kind lenByte : UInt8) (value : List UInt8) (i : ℕ) :
    uint32At (kind :: lenByte :: value) (2 + i) = uint32At value i := by
  rw [Nat.add_comm]
  rfl

theorem blocksOf_eq : ∀ value : List UInt8, blocksOf value =
    (List.range (value.length / 8)).map fun j => ⟨uint32At value (j * 8), uint32At value (j * 8 + 4)⟩
  | a :: b :: c :: d :: e :: f :: g :: h :: rest => by
    have hlen : (a :: b :: c :: d :: e :: f :: g :: h :: rest).length / 8 = rest.length / 8 + 1 := by
      simp only [List.length_cons]
      omega
    rw [blocksOf, hlen, List.range_succ_eq_map, List.map_cons, List.map_map, blocksOf_eq rest,
      uint32At_eq_bigEndian, uint32At_eq_bigEndian]
    refine congrArg₂ _ rfl (List.map_congr_left fun j _ => ?_)
    have hj : (j + 1) * 8 = j * 8 + 8 := by omega
    simp only [Function.comp_apply, Nat.succ_eq_add_one, hj]
    rfl
  | [] | [_] | [_, _] | [_, _, _] | [_, _, _, _] | [_, _, _, _, _] | [_, _, _, _, _, _]
  | [_, _, _, _, _, _, _] => by simp [blocksOf]

theorem uint32At_four : ∀ {value : List UInt8}, value.length = 4 →
    uint32At value 0 = UInt32.ofNat (bigEndian value)
  | [a, b, c, d], _ => uint32At_eq_bigEndian [a, b, c, d] 0

/-- The first half of a timestamp option's value. -/
theorem uint32At_first {value : List UInt8} (h : value.length = 8) :
    uint32At value 0 = UInt32.ofNat (bigEndian (value.take 4)) := by
  rw [← uint32At_four (by rw [List.length_take]; omega), uint32At_take (by omega)]

/-- The second half. -/
theorem uint32At_second {value : List UInt8} (h : value.length = 8) :
    uint32At value 4 = UInt32.ofNat (bigEndian (value.drop 4)) := by
  rw [← uint32At_four (by rw [List.length_drop]; omega), uint32At, uint32At, getD_drop, getD_drop,
    getD_drop, getD_drop]

section
variable (kind : UInt8) (value : List UInt8) (h0 : kind ≠ tcpOptionEOL) (h1 : kind ≠ tcpOptionNOP)
  (hlen : value.length + 2 < 256)

/-- The switch of `ParseSynOptions` on a whole option. -/
theorem synOption_eq (so : SynOptions) :
    synOption so kind (value.length + 2) (kind :: UInt8.ofNat (value.length + 2) :: value)
      = TCPOption.onSyn so (.tlv kind value h0 h1 hlen) := by
  have hl : ∀ n, value.length + 2 = n + 2 ↔ value.length = n := fun n => by omega
  rw [synOption, TCPOption.onSyn]
  simp only [tcpOptionMSSLength, tcpOptionWSLength, tcpOptionSACKPermittedLength, tcpOptionTSLength,
    hl 2, hl 1, hl 0, hl 8]
  split_ifs with hmss h hws h hsack h hts h
  · obtain ⟨a, b, rfl⟩ := List.length_eq_two.1 h
    rw [uint16At_eq_bigEndian]
    rfl
  · rfl
  · obtain ⟨a, rfl⟩ := List.length_eq_one_iff.1 h
    rw [bigEndian, maxWndScale]
    simp
  · rfl
  · rfl
  · rfl
  · rw [← uint32At_first h]
    rfl
  · rfl
  · rfl

/-- The switch of `ParseSegmentOptions` on a whole option. -/
theorem segmentOption_eq (so : SegmentOptions) :
    segmentOption so kind (value.length + 2) (kind :: UInt8.ofNat (value.length + 2) :: value)
      = TCPOption.onSegment so (.tlv kind value h0 h1 hlen) := by
  have hl : value.length + 2 = 10 ↔ value.length = 8 := by omega
  rw [segmentOption, TCPOption.onSegment]
  simp only [Nat.add_sub_cancel, tcpOptionTSLength, hl]
  split_ifs with hsack h hts h
  · rw [blocksOf_eq, ← List.map_take, List.take_range, min_comm, tcpMaxSACKBlocks]
    simp only [Nat.add_assoc, uint32At_value]
  · rfl
  · rw [← uint32At_first h, ← uint32At_second h]
    rfl
  · rfl
  · rfl

end

/-! ### The parsers -/

section
variable {α : Type} {handle : α → UInt8 → ℕ → List UInt8 → α}

/-- What ends an option area ends the parse. -/
theorem EndsOptions.parse {tail : List UInt8} (h : EndsOptions tail) (acc : α) :
    parseOptions handle tail.length tail acc = acc := by
  cases h with
  | nothing => rfl
  | eol rest => rw [List.length_cons, parseOptions_cons, if_pos rfl]
  | bare kind h0 h1 => rw [List.length_cons, parseOptions_cons, if_neg h0, if_neg h1]
  | truncated kind lenByte rest h0 h1 h =>
    rw [List.length_cons, parseOptions_cons, if_neg h0, if_neg h1]
    dsimp only
    rw [if_pos (.inr (by simpa using h))]
  | short kind lenByte rest h0 h1 h =>
    rw [List.length_cons, parseOptions_cons, if_neg h0, if_neg h1]
    dsimp only
    rw [if_pos (.inl h)]

/-- The parser reads an option as `f` does, if `f` is what its switch makes of a whole option. -/
theorem TCPOption.reads {f : α → TCPOption → α} (hnop : ∀ acc, f acc .nop = acc)
    (htlv : ∀ kind value h0 h1 hlen acc, handle acc kind (value.length + 2)
      (kind :: UInt8.ofNat (value.length + 2) :: value) = f acc (.tlv kind value h0 h1 hlen)) :
    ∀ o : TCPOption, Reads handle o.bytes fun acc => f acc o
  | .nop => by
    have hid : (fun acc => f acc .nop) = id := funext hnop
    exact hid ▸ Reads.nop
  | .tlv kind value h0 h1 hlen => by
    have hread : Reads handle (kind :: UInt8.ofNat (value.length + 2) :: value) _ :=
      Reads.option kind value h0 h1 hlen
    simp only [htlv _ _ h0 h1 hlen] at hread
    exact hread

/-- A sequence of options is read one after another. -/
theorem reads_options {f : α → TCPOption → α} (h : ∀ o : TCPOption, Reads handle o.bytes fun acc => f acc o) :
    ∀ os : List TCPOption, Reads handle (os.flatMap TCPOption.bytes) fun acc => os.foldl f acc
  | [] => Reads.nil
  | o :: os => by
    rw [List.flatMap_cons]
    exact (h o).append (reads_options h os)

/-- What a parser makes of an option area. -/
theorem parse_area {f : α → TCPOption → α} (h : ∀ o : TCPOption, Reads handle o.bytes fun acc => f acc o)
    (os : List TCPOption) {tail : List UInt8} (htail : EndsOptions tail) (acc : α) :
    parseOptions handle (os.flatMap TCPOption.bytes ++ tail).length
      (os.flatMap TCPOption.bytes ++ tail) acc = os.foldl f acc := by
  rw [reads_options h os tail acc, htail.parse]

end

/-- CORRECT: on a sequence of well-formed options with an end, both parsers return the fold of what the
    options say; on any bytes they return without a read out of bounds. -/
theorem options_parse (os : List TCPOption) {tail : List UInt8} (htail : EndsOptions tail) :
    scanSynOptions (os.flatMap TCPOption.bytes ++ tail) = some (os.foldl TCPOption.onSyn .zero) ∧
    scanSegmentOptions (os.flatMap TCPOption.bytes ++ tail)
      = some (os.foldl TCPOption.onSegment .zero) ∧
    ∀ opts : List UInt8, scanSynOptions opts = some (parseSynOptions opts) ∧
      scanSegmentOptions opts = some (parseSegmentOptions opts) := by
  refine ⟨?_, ?_, fun opts => ⟨scanSynOptions_eq opts, scanSegmentOptions_eq opts⟩⟩
  · rw [scanSynOptions_eq]
    exact congrArg some (parse_area (TCPOption.reads (fun _ => rfl) synOption_eq) os htail .zero)
  · rw [scanSegmentOptions_eq]
    exact congrArg some (parse_area (TCPOption.reads (fun _ => rfl) segmentOption_eq) os htail .zero)

/-- MSS, an unknown kind, a window scale above the limit, and MSS again. -/
def sampleOptions : List TCPOption :=
  [.tlv tcpOptionMSS [2, 24] (by decide) (by decide) (by decide), .nop,
    .tlv 254 [1, 2, 3] (by decide) (by decide) (by decide),
    .tlv tcpOptionWS [20] (by decide) (by decide) (by decide),
    .tlv tcpOptionMSS [5, 180] (by decide) (by decide) (by decide)]

/-- Behind them a timestamp option that is cut short. -/
theorem options_parse_sample : EndsOptions [tcpOptionTS, 10, 0, 0] ∧
    scanSynOptions (sampleOptions.flatMap TCPOption.bytes ++ [tcpOptionTS, 10, 0, 0])
      = some { mss := 1460, ws := 14, sackPermit := false, tsEnabled := false, tsVal := 0 } := by
  have htail : EndsOptions [tcpOptionTS, 10, 0, 0] :=
    .truncated tcpOptionTS 10 [0, 0] (by decide) (by decide) (by decide)
  exact ⟨htail, (options_parse sampleOptions htail).1.trans (by decide)⟩

end Netstack.Header
