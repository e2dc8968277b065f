import Sigstore.Delimited
import Sigstore.Types.Bundle

/-!
# The pre-authentication encoding is injective

What an envelope's signatures sign (`pae`, `dsse.rs`) tells the payload type and the payload
(`pae_inj`). Both are written after their lengths in decimal digits and a space, so the spaces and
digits in them do not matter: the space ends the length, and the length says where the field ends.
-/

namespace Sigstore.Types

open Delimited

/-- `DsseEnvelope::decode_payload`. -/
def DsseEnvelope.decodePayload (envelope : DsseEnvelope) : Bytes := envelope.payload

/-- A number as the encoding writes it. -/
def decimal (n : Nat) : Bytes := utf8Bytes (toString n)

/-- Different numbers have different decimal texts. -/
theorem decimal_injective : Function.Injective decimal := by
  intro m n h
  have hchars := congrArg String.toList (utf8Bytes_injective h)
  rw [toList_toString_nat, toList_toString_nat] at hchars
  exact toDigits_injective hchars

/-- There is no space in a decimal text, so a space ends it. -/
theorem ne_space_of_mem_decimal {n : Nat} {x : UInt8} (h : x ∈ decimal n) : x ≠ 0x20 := by
  have hdigit : ∀ c ∈ (toString n).toList, c.isDigit = true := by
    intro c hc
    rw [toList_toString_nat] at hc
    exact isDigit_of_mem_digits hc
  obtain ⟨c, hc, rfl⟩ := mem_utf8Bytes h fun c hc => utf8Size_of_isDigit (hdigit c hc)
  have hge := (toUInt8_of_isDigit (hdigit c hc)).1
  intro hspace
  rw [hspace] at hge
  exact absurd hge (by decide)

/-- A length is read to the space after it. -/
theorem decimal_unambiguous (m n : Nat) : Unambiguous (· ≠ 0x20) (decimal m) (decimal n) :=
  unambiguous_of_forall (fun _ => ne_space_of_mem_decimal) fun _ => ne_space_of_mem_decimal

/-- The encoding is its header and two counted fields. -/
theorem pae_eq (payloadType : String) (payload : Bytes) :
    pae payloadType payload =
      utf8Bytes "DSSEv1 " ++
        (counted decimal 0x20 (utf8Bytes payloadType) ++
          0x20 :: counted decimal 0x20 payload) := by
  have hlength : ∀ n : Nat, utf8Bytes s!"{n} " = decimal n ++ [0x20] := by
    intro n
    exact utf8Bytes_append (toString n) " "
  simp only [pae, hlength, counted, List.append_assoc, List.cons_append, List.nil_append]

/-- Two pairs of a payload type and a payload have one encoding only where they are one pair, and
envelopes whose signatures cover the same bytes have the same payload type and payload. -/
theorem pae_inj :
    (∀ payloadType payloadType' payload payload',
      pae payloadType payload = pae payloadType' payload' ↔
        payloadType = payloadType' ∧ payload = payload') ∧
    ∀ envelope envelope' : DsseEnvelope, envelope.pae = envelope'.pae ↔
      envelope.payloadType = envelope'.payloadType ∧
        envelope.decodePayload = envelope'.decodePayload := by
  have hpae : ∀ payloadType payloadType' payload payload',
      pae payloadType payload = pae payloadType' payload' ↔
        payloadType = payloadType' ∧ payload = payload' := by
    intro payloadType payloadType' payload payload'
    constructor
    · intro h
      rw [pae_eq, pae_eq] at h
      have hread := fun {b c s t : Bytes} => counted_append_inj decimal_unambiguous
        decimal_injective (fun hne => hne rfl) (b := b) (c := c) (s := s) (t := t)
      obtain ⟨htype, hrest⟩ := hread (List.append_cancel_left h)
      have hpayload := (List.cons.inj hrest).2
      rw [← List.append_nil (counted _ _ payload), ← List.append_nil (counted _ _ payload')]
        at hpayload
      exact ⟨utf8Bytes_injective htype, (hread hpayload).1⟩
    · rintro ⟨rfl, rfl⟩
      rfl
  exact ⟨hpae, fun envelope envelope' => hpae _ _ _ _⟩

/-- A space moved from the payload type into the payload changes the encoding. -/
example : pae "a b" [0x63] ≠ pae "a" [0x62, 0x20, 0x63] := by decide

end Sigstore.Types
