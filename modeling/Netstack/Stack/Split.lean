import Netstack.Lib.Pieces
import Netstack.Header.IPv4

/-! Splitting a packet that is too long for the channel (`fragmentIPv4Packet` of
    `stack/fragmentation.go`). -/

namespace Netstack.Stack
open Netstack.Copy Netstack.Header

/-- One turn of the loop of `fragmentIPv4Packet`: the header of the packet with its own length, flags,
    offset and checksum, and a part of the payload. -/
def buildFragment (hdr : List UInt8) (flags : UInt8) (offset : ℕ) (payload : List UInt8) : List UInt8 :=
  let frag := hdr ++ payload
  let frag := IPv4.setTotalLength frag (UInt16.ofNat frag.length)
  let frag := IPv4.setFlagsFragmentOffset frag flags (UInt16.ofNat (offset / 8))
  let frag := IPv4.setChecksum frag 0
  IPv4.setChecksum frag (checksum (frag.take hdr.length) 0)

/-- The loop of `fragmentIPv4Packet`, from `offset` on with `payload` to go. Every turn takes
    `maxPayload` bytes, so `fuel` above the length of the payload is never used up. -/
def fragmentLoop (hdr : List UInt8) (baseFlags : UInt8) (maxPayload : ℕ) :
    ℕ → ℕ → List UInt8 → List (List UInt8)
  | 0, _, _ => []
  | fuel + 1, offset, payload =>
    if payload = [] then []
    else
      let more := decide (payload.length > maxPayload)
      let flags := if more then baseFlags ||| ipv4FlagMoreFragments else baseFlags
      buildFragment hdr flags offset (payload.take maxPayload)
        :: fragmentLoop hdr baseFlags maxPayload fuel (offset + maxPayload) (payload.drop maxPayload)

/-- `fragmentIPv4Packet`. -/
def fragmentIPv4Packet (pkt : List UInt8) (mtu : ℤ) : Option (List (List UInt8)) :=
  let hdrLen := IPv4.headerLength pkt
  let totalLen := (IPv4.totalLength pkt).toNat
  if pkt.length < ipv4MinHeaderSize then none
  else if hdrLen < ipv4MinHeaderSize ∨ hdrLen > pkt.length ∨ totalLen < hdrLen ∨ totalLen > pkt.length then
    none
  else if totalLen ≤ mtu then some [pkt.take totalLen]
  else if IPv4.flags pkt &&& ipv4FlagDontFragment ≠ 0 ∨ mtu ≤ hdrLen then none
  else
    -- a multiple of eight
    let maxPayload := (mtu.toNat - hdrLen) / 8 * 8
    if maxPayload = 0 then none
    else
      let payload := (pkt.take totalLen).drop hdrLen
      let baseFlags := IPv4.flags pkt &&& ~~~ ipv4FlagMoreFragments
      some (fragmentLoop (pkt.take hdrLen) baseFlags maxPayload (payload.length + 1) 0 payload)

theorem length_buildFragment {hdr : List UInt8} (h : ipv4MinHeaderSize ≤ hdr.length) (flags : UInt8)
    (offset : ℕ) (payload : List UInt8) :
    (buildFragment hdr flags offset payload).length = hdr.length + payload.length := by
  rw [ipv4MinHeaderSize] at h
  have hset : ∀ (raw : List UInt8) (i : ℕ) (v : UInt16), raw.length = hdr.length + payload.length →
      i ≤ 10 → (blit raw i (bytes16 v)).length = hdr.length + payload.length := by
    intro raw i v hraw hi
    rw [length_blit _ (by omega), hraw]
  dsimp only [buildFragment, IPv4.setTotalLength, IPv4.setFlagsFragmentOffset, IPv4.setChecksum]
  refine hset _ _ _ (hset _ _ _ (hset _ _ _ (hset _ _ _ ?_ ?_) ?_) ?_) ?_
  · exact List.length_append
  all_goals omega

theorem length_mem_fragmentLoop {hdr : List UInt8} (h : ipv4MinHeaderSize ≤ hdr.length)
    {baseFlags : UInt8} {maxPayload : ℕ} : ∀ {fuel offset : ℕ} {payload : List UInt8},
    ∀ frag ∈ fragmentLoop hdr baseFlags maxPayload fuel offset payload,
      frag.length ≤ hdr.length + maxPayload
  | 0, _, _, _, hf => by cases hf
  | fuel + 1, offset, payload, frag, hf => by
      rw [fragmentLoop] at hf
      split at hf
      · cases hf
      · rcases List.mem_cons.1 hf with rfl | hf
        · rw [length_buildFragment h, List.length_take]
          omega
        · exact length_mem_fragmentLoop h frag hf

/-- Every fragment fits. -/
theorem length_fragment_le {pkt : List UInt8} {mtu : ℤ} {frags : List (List UInt8)}
    (h : fragmentIPv4Packet pkt mtu = some frags) : ∀ frag ∈ frags, (frag.length : ℤ) ≤ mtu := by
  rw [fragmentIPv4Packet] at h
  dsimp only at h
  split_ifs at h with hshort hbad hfits hdf hmax
  · cases h
    intro frag hf
    rw [List.mem_singleton.1 hf, List.length_take]
    omega
  · cases h
    intro frag hf
    have hhdr : (pkt.take (IPv4.headerLength pkt)).length = IPv4.headerLength pkt := by
      rw [List.length_take]
      omega
    have hle := length_mem_fragmentLoop (by rw [hhdr]; omega) frag hf
    rw [hhdr] at hle
    have hmul := Nat.div_mul_le_self (mtu.toNat - IPv4.headerLength pkt) 8
    omega

end Netstack.Stack
