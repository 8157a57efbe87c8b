import AsioNet.AuthenticationInput
import AsioNet.CsNetwork.Serialization.BinaryFormatter

/-! # The login token (`NetworkManager.SendCheckToken`)

    `SendCheckToken` serializes a `ServerToken`. The serializer asks a class for its
    properties, and what `ServerToken` declares are public fields: every token is
    the one byte that says the instance is not null. The proxy reads a request out
    of such a body that is made of what its buffer held before.
-/

namespace AsioNet.CsNetwork

open ByteMemory reusabel_buffer proxy_manager default_session_logic BinaryFormatter

/-! ### Fields and properties -/

inductive member where
  | field (t : ty)
  | property (t : ty)
  deriving DecidableEq, Repr

/-- `Type.GetProperties` of a class that declares these members: fields are not among them. -/
def GetProperties : List member → List ty
  | [] => []
  | .field _ :: ms => GetProperties ms
  | .property t :: ms => t :: GetProperties ms

variable {Γ : Nat → List ty}

/-- The values of the members of an instance. -/
inductive member_values (Γ : Nat → List ty) : List member → Type
  | nil : member_values Γ []
  | field {t : ty} {ms : List member} (v : val Γ t) (rest : member_values Γ ms) :
    member_values Γ (.field t :: ms)
  | property {t : ty} {ms : List member} (v : val Γ t) (rest : member_values Γ ms) :
    member_values Γ (.property t :: ms)

/-- `GetValue` of each property. -/
def member_values.GetValues : {ms : List member} → member_values Γ ms → vals Γ (GetProperties ms)
  | _, .nil => .nil
  | _, .field _ rest => rest.GetValues
  | _, .property v rest => .cons v rest.GetValues

/-! ### The token -/

structure ServerToken where
  SvrAreaNo : UInt16
  ServerNo : UInt16
  Platform : Option cs_string

namespace ServerToken

/-- What the class declares. -/
def members : List member :=
  [.field (.scalar .ushort), .field (.scalar .ushort), .field .string]

/-- The only class there is. -/
def classes : Nat → List ty := fun _ => GetProperties members

def member_values (svr : ServerToken) : CsNetwork.member_values classes members :=
  .field (.scalar (s := .ushort) svr.SvrAreaNo) (.field (.scalar (s := .ushort) svr.ServerNo)
    (.field (.string svr.Platform) .nil))

/-- The token as the serializer gets it. -/
def graph (svr : ServerToken) : val classes (.cls 0) := .object svr.member_values.GetValues

end ServerToken

/-- The bytes that `NetworkManager.SendCheckToken` sends. -/
def NetworkManager.token (E : Encoding) (areaId sid : Int32) (platform : cs_string) :
    Except stop (List UInt8) :=
  Serialize E false (ServerToken.mk areaId.toInt16.toUInt16 sid.toInt16.toUInt16
    (some platform)).graph

/-- The request that says the same as the token, its platform up to the NUL. -/
def ServerToken.Says (request : authentication_aaa_request) (areaId sid : Int32)
    (platform : cs_string) : Prop :=
  request.area_id.toNat = areaId.toInt ∧ request.server_id.toNat = sid.toInt ∧
    request.platform.takeWhile (· != 0) = platform.map UInt16.toUInt8

/-- `body`, in a buffer that held anything, is read as the request for these. -/
def ServerToken.Decodes (body : List UInt8) (areaId sid : Int32) (platform : cs_string) : Prop :=
  ∀ held : Nat → UInt8, ∃ request,
    authentication_aaa_request.unpack (received_block held body) 0 (UInt16.ofNat body.length) =
      .ok request ∧ Says request areaId sid platform

namespace ServerToken

theorem token_eq (E : Encoding) (areaId sid : Int32) (platform : cs_string) :
    NetworkManager.token E areaId sid platform = .ok [0] := rfl

/-- Of the zero byte the proxy reads a platform that begins with byte 5 of the buffer. -/
theorem platform_of_decodes {body : List UInt8} (hlt : body.length < 3) {areaId sid : Int32}
    {platform : cs_string} (h : Decodes body areaId sid platform) (b : UInt8) :
    platform.map UInt16.toUInt8 = [] ↔ b = 0 := by
  obtain ⟨request, hrequest, -, -, hplatform⟩ := h fun _ => b
  obtain ⟨request', hrequest', -, hhead⟩ := unpack_of_tiny (fun _ => b) hlt
  rw [hrequest] at hrequest'
  obtain rfl := Except.ok.inj hrequest'
  rw [← hplatform]
  rcases hbytes : request.platform with _ | ⟨a, rest⟩
  · rw [hbytes] at hhead
    simp at hhead
  · rw [hbytes, List.head?_cons, Option.some.injEq] at hhead
    rw [hhead]
    by_cases hb : b = 0
    · simp [hb]
    · simp [hb]

/-- **The token is never decoded**, and no two tokens are told apart. -/
theorem never_decoded (E : Encoding) (areaId sid : Int32) (platform : cs_string) :
    ∃ token, NetworkManager.token E areaId sid platform = .ok token ∧
      ¬ Decodes token areaId sid platform ∧
      ∀ areaId' sid' platform', NetworkManager.token E areaId' sid' platform' = .ok token := by
  refine ⟨[0], token_eq E areaId sid platform, ?_, ?_⟩
  · intro hdecodes
    have hempty := platform_of_decodes (by decide) hdecodes 0
    have hnonempty := platform_of_decodes (by decide) hdecodes 1
    exact absurd (hnonempty.mp (hempty.mpr rfl)) (by decide)
  · intro areaId' sid' platform'
    exact token_eq E areaId' sid' platform'

/-- Area 1, server 2 on the platform "a" is not decoded, and area 3 has the same token. -/
theorem one_two_a_not_decoded :
    NetworkManager.token ascii 1 2 [97] = .ok [0] ∧ ¬ Decodes [0] 1 2 [97] ∧
      NetworkManager.token ascii 3 2 [97] = .ok [0] := by
  refine ⟨token_eq ascii 1 2 [97], ?_, token_eq ascii 3 2 [97]⟩
  intro hdecodes
  exact absurd ((platform_of_decodes (by decide) hdecodes 0).mpr rfl) (by decide)

end ServerToken

end AsioNet.CsNetwork
