import Netstack.Header.IPv4

/-! TCP flags and options (`header/tcp.go`).

    The two option parsers are one loop over the option bytes that differ only in what they do with
    a well-formed option; the loop is `parseOptions` and each parser supplies its switch. -/

namespace Netstack.Header

def tcpMinHeaderSize : ℕ := 20

def tcpOptionEOL : UInt8 := 0
def tcpOptionNOP : UInt8 := 1
def tcpOptionMSS : UInt8 := 2
def tcpOptionWS : UInt8 := 3
def tcpOptionSACKPermitted : UInt8 := 4
def tcpOptionSACK : UInt8 := 5
def tcpOptionTS : UInt8 := 8

def tcpOptionMSSLength : ℕ := 4
def tcpOptionWSLength : ℕ := 3
def tcpOptionSACKPermittedLength : ℕ := 2
def tcpOptionTSLength : ℕ := 10

def maxWndScale : ℕ := 14
def tcpMaxSACKBlocks : ℕ := 4

/-- `TCPFlags`, a bitmask. -/
abbrev TCPFlags := UInt8

def tcpFlagFIN : TCPFlags := 1
def tcpFlagSYN : TCPFlags := 2
def tcpFlagRST : TCPFlags := 4
def tcpFlagACK : TCPFlags := 16

/-- `Has`: all flags of `mask` are set. -/
def TCPFlags.has (f mask : TCPFlags) : Bool := f &&& mask == mask

/-- `SACKBlock`: the range `[start, stop)`. -/
structure SACKBlock where
  start : UInt32
  stop : UInt32
  deriving DecidableEq, Repr

/-- `SynOptions`; `ws` is -1 when the option is absent, `mss` is 0. -/
structure SynOptions where
  mss : UInt16
  ws : ℤ
  sackPermit : Bool
  tsEnabled : Bool
  tsVal : UInt32
  deriving DecidableEq, Repr

/-- `SegmentOptions`. -/
structure SegmentOptions where
  sackBlocks : List SACKBlock
  tsEnabled : Bool
  tsVal : UInt32
  tsEcr : UInt32
  deriving DecidableEq, Repr

/-- The loop of the option parsers. `handle` is their switch: it is given the accumulator, the kind,
    the length byte and the bytes of one well-formed option. Every turn drops at least one byte, so
    `fuel` of the number of bytes suffices. -/
def parseOptions {α : Type} (handle : α → UInt8 → ℕ → List UInt8 → α) :
    ℕ → List UInt8 → α → α
  | 0, _, acc => acc
  | fuel + 1, opts, acc =>
    match opts with
    | [] => acc
    | kind :: rest =>
      if kind = tcpOptionEOL then acc
      else if kind = tcpOptionNOP then parseOptions handle fuel rest acc
      else
        match rest with
        | [] => acc
        | lenByte :: _ =>
          let optLen := lenByte.toNat
          if optLen < 2 ∨ optLen > opts.length then acc
          else parseOptions handle fuel (opts.drop optLen) (handle acc kind optLen (opts.take optLen))

/-- The switch of `ParseSynOptions`. -/
def synOption (so : SynOptions) (kind : UInt8) (optLen : ℕ) (opt : List UInt8) : SynOptions :=
  if kind = tcpOptionMSS then
    if optLen = tcpOptionMSSLength then { so with mss := uint16At opt 2 } else so
  else if kind = tcpOptionWS then
    if optLen = tcpOptionWSLength then { so with ws := (min (opt.getD 2 0).toNat maxWndScale : ℕ) }
    else so
  else if kind = tcpOptionSACKPermitted then
    if optLen = tcpOptionSACKPermittedLength then { so with sackPermit := true } else so
  else if kind = tcpOptionTS then
    if optLen = tcpOptionTSLength then { so with tsEnabled := true, tsVal := uint32At opt 2 } else so
  else so

/-- `ParseSynOptions`. -/
def parseSynOptions (opts : List UInt8) : SynOptions :=
  parseOptions synOption opts.length opts
    { mss := 0, ws := -1, sackPermit := false, tsEnabled := false, tsVal := 0 }

/-- The switch of `ParseSegmentOptions`. -/
def segmentOption (so : SegmentOptions) (kind : UInt8) (optLen : ℕ) (opt : List UInt8) :
    SegmentOptions :=
  if kind = tcpOptionSACK then
    if (optLen - 2) % 8 = 0 then
      { so with sackBlocks := (List.range (min ((optLen - 2) / 8) tcpMaxSACKBlocks)).map fun j =>
          { start := uint32At opt (2 + j * 8), stop := uint32At opt (2 + j * 8 + 4) } }
    else so
  else if kind = tcpOptionTS then
    if optLen = tcpOptionTSLength then
      { so with tsEnabled := true, tsVal := uint32At opt 2, tsEcr := uint32At opt 6 }
    else so
  else so

/-- `ParseSegmentOptions`. -/
def parseSegmentOptions (opts : List UInt8) : SegmentOptions :=
  parseOptions segmentOption opts.length opts
    { sackBlocks := [], tsEnabled := false, tsVal := 0, tsEcr := 0 }

/-- `EncodeMSSOption`, for a buffer with room. -/
def encodeMSSOption (mss : UInt16) : List UInt8 :=
  [tcpOptionMSS, UInt8.ofNat tcpOptionMSSLength] ++ bytes16 mss

/-- `EncodeWSOption`. -/
def encodeWSOption (ws : ℕ) : List UInt8 :=
  [tcpOptionWS, UInt8.ofNat tcpOptionWSLength, UInt8.ofNat ws]

/-- `EncodeSACKPermittedOption`. -/
def encodeSACKPermittedOption : List UInt8 :=
  [tcpOptionSACKPermitted, UInt8.ofNat tcpOptionSACKPermittedLength]

/-- `EncodeTimestampOption`: two NOPs and the option. -/
def encodeTimestampOption (tsVal tsEcr : UInt32) : List UInt8 :=
  [tcpOptionNOP, tcpOptionNOP, tcpOptionTS, UInt8.ofNat tcpOptionTSLength]
    ++ bytes32 tsVal ++ bytes32 tsEcr

/-- The number of blocks `EncodeSACKBlocks` writes: at most four, and as many as fit into `room`. -/
def sackBlocksThatFit (room n : ℕ) : ℕ := min (min n tcpMaxSACKBlocks) ((room - 2) / 8)

/-- `EncodeSACKBlocks` into a buffer of length `room`. -/
def encodeSACKBlocks (room : ℕ) (blocks : List SACKBlock) : List UInt8 :=
  let n := sackBlocksThatFit room blocks.length
  if n = 0 then []
  else [tcpOptionSACK, UInt8.ofNat (2 + n * 8)]
    ++ (blocks.take n).flatMap fun b => bytes32 b.start ++ bytes32 b.stop

/-- The padding loop of the senders: NOPs up to a multiple of four. -/
def padOptions (opts : List UInt8) : List UInt8 :=
  opts ++ List.replicate ((4 - opts.length % 4) % 4) tcpOptionNOP

/-! ### Reading options back -/

section Reads

variable {α : Type} {handle : α → UInt8 → ℕ → List UInt8 → α}

theorem parseOptions_cons (fuel : ℕ) (kind : UInt8) (rest : List UInt8) (acc : α) :
    parseOptions handle (fuel + 1) (kind :: rest) acc =
      if kind = tcpOptionEOL then acc
      else if kind = tcpOptionNOP then parseOptions handle fuel rest acc
      else match rest with
        | [] => acc
        | lenByte :: _ =>
          if lenByte.toNat < 2 ∨ lenByte.toNat > (kind :: rest).length then acc
          else parseOptions handle fuel ((kind :: rest).drop lenByte.toNat)
            (handle acc kind lenByte.toNat ((kind :: rest).take lenByte.toNat)) := rfl

/-- More fuel than bytes changes nothing. -/
theorem parseOptions_fuel : ∀ {fuel : ℕ} {opts : List UInt8} (acc : α), opts.length ≤ fuel →
    parseOptions handle fuel opts acc = parseOptions handle opts.length opts acc := by
  intro fuel
  induction fuel using Nat.strong_induction_on with
  | _ fuel ih =>
    intro opts acc hlen
    cases opts with
    | nil => cases fuel <;> rfl
    | cons kind rest =>
      obtain ⟨k, rfl⟩ : ∃ k, fuel = k + 1 := ⟨fuel - 1, by simp at hlen; omega⟩
      rw [List.length_cons] at hlen ⊢
      have hshort : ∀ {l : List UInt8} (acc : α), l.length ≤ rest.length →
          parseOptions handle k l acc = parseOptions handle rest.length l acc := by
        intro l acc hl
        rcases Nat.lt_or_ge rest.length (k + 1) with hk | hk
        · rw [ih k (by omega) acc (by omega), ih rest.length (by omega) acc hl]
        · omega
      rw [parseOptions_cons, parseOptions_cons]
      split_ifs
      · rfl
      · exact hshort acc le_rfl
      · cases rest with
        | nil => rfl
        | cons lenByte body =>
          dsimp only
          split_ifs with hbad
          · rfl
          · refine hshort _ ?_
            rw [List.length_drop, List.length_cons]
            omega

/-- The parser reads `bytes`, whatever follows them, as the change `f` of its result. -/
def Reads (handle : α → UInt8 → ℕ → List UInt8 → α) (bytes : List UInt8) (f : α → α) : Prop :=
  ∀ rest acc, parseOptions handle (bytes ++ rest).length (bytes ++ rest) acc
    = parseOptions handle rest.length rest (f acc)

namespace Reads

theorem nil : Reads handle [] id := fun _ _ => rfl

theorem append {b b' : List UInt8} {f f' : α → α} (h : Reads handle b f) (h' : Reads handle b' f') :
    Reads handle (b ++ b') (f' ∘ f) := by
  intro rest acc
  rw [List.append_assoc, h (b' ++ rest) acc, h' rest (f acc)]
  rfl

theorem nop : Reads handle [tcpOptionNOP] id := by
  intro rest acc
  rw [List.singleton_append, List.length_cons, parseOptions_cons, if_neg (by decide), if_pos rfl]
  rfl

theorem nops : ∀ n, Reads handle (List.replicate n tcpOptionNOP) id
  | 0 => nil
  | n + 1 => nop.append (nops n)

/-- A well-formed option is handed to the switch. -/
theorem option (kind : UInt8) (body : List UInt8) (h0 : kind ≠ tcpOptionEOL)
    (h1 : kind ≠ tcpOptionNOP) (hlen : body.length + 2 < 256) :
    Reads handle (kind :: UInt8.ofNat (body.length + 2) :: body) fun acc =>
      handle acc kind (body.length + 2) (kind :: UInt8.ofNat (body.length + 2) :: body) := by
  intro rest acc
  have hbyte : (UInt8.ofNat (body.length + 2)).toNat = body.length + 2 :=
    UInt8.toNat_ofNat_of_lt' hlen
  set opt := kind :: UInt8.ofNat (body.length + 2) :: body with hopt
  have hl : opt.length = body.length + 2 := by simp [hopt]
  have hall : opt ++ rest = kind :: UInt8.ofNat (body.length + 2) :: (body ++ rest) := rfl
  rw [hall, List.length_cons, parseOptions_cons, if_neg h0, if_neg h1]
  dsimp only
  rw [if_neg (by rw [hbyte]; simp), hbyte, ← hall, ← hl, List.drop_left, List.take_left]
  exact parseOptions_fuel _ (by simp; omega)

end Reads
end Reads

theorem synOption_ws {so : SynOptions} {kind : UInt8} (optLen : ℕ) (opt : List UInt8)
    (h : kind ≠ tcpOptionWS) : (synOption so kind optLen opt).ws = so.ws := by
  rw [synOption, if_neg h]
  split_ifs <;> rfl

theorem reads_mss (v : UInt16) : Reads synOption (encodeMSSOption v) fun so =>
    synOption so tcpOptionMSS tcpOptionMSSLength (encodeMSSOption v) :=
  Reads.option tcpOptionMSS (bytes16 v) (by decide) (by decide) (by simp [bytes16])

theorem reads_ws {k : ℕ} (hk : k ≤ maxWndScale) :
    Reads synOption (encodeWSOption k) fun so => { so with ws := k } := by
  have hbyte : (UInt8.ofNat k).toNat = k :=
    UInt8.toNat_ofNat_of_lt' (lt_of_le_of_lt hk (by decide))
  have hmin : min (UInt8.ofNat k).toNat maxWndScale = k := by rw [hbyte, min_eq_left hk]
  have hswitch : ∀ so, synOption so tcpOptionWS tcpOptionWSLength (encodeWSOption k)
      = { so with ws := k } := by
    intro so
    rw [synOption, if_neg (by decide), if_pos rfl, if_pos rfl]
    exact congrArg (fun n : ℕ => { so with ws := (n : ℤ) }) hmin
  have h : Reads synOption (encodeWSOption k) fun so =>
      synOption so tcpOptionWS tcpOptionWSLength (encodeWSOption k) :=
    Reads.option tcpOptionWS [UInt8.ofNat k] (by decide) (by decide) (by simp)
  exact (funext hswitch) ▸ h

theorem reads_sackPermitted : Reads synOption encodeSACKPermittedOption fun so =>
    { so with sackPermit := true } :=
  Reads.option tcpOptionSACKPermitted [] (by decide) (by decide) (by decide)

theorem reads_timestamp (v e : UInt32) : Reads synOption (encodeTimestampOption v e) fun so =>
    synOption so tcpOptionTS tcpOptionTSLength ([tcpOptionTS, UInt8.ofNat tcpOptionTSLength]
      ++ bytes32 v ++ bytes32 e) :=
  (Reads.nop.append .nop).append (Reads.option tcpOptionTS (bytes32 v ++ bytes32 e) (by decide)
    (by decide) (by simp [bytes32]))

theorem reads_pad {bytes : List UInt8} {f : SynOptions → SynOptions} (h : Reads synOption bytes f) :
    Reads synOption (padOptions bytes) f := h.append (.nops _)

theorem Reads.parseSynOptions {bytes : List UInt8} {f : SynOptions → SynOptions}
    (h : Reads synOption bytes f) : parseSynOptions bytes
      = f { mss := 0, ws := -1, sackPermit := false, tsEnabled := false, tsVal := 0 } := by
  have hall := h [] { mss := 0, ws := -1, sackPermit := false, tsEnabled := false, tsVal := 0 }
  rw [List.append_nil] at hall
  exact hall

end Netstack.Header
