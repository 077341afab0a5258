import ApigateBenchmark.AuthService.Handlers
import ApigateBenchmark.Library.GoDocument

/-!
# The bodies of auth-service

Every body it answers with is a JSON document of the payload: an error as its message, the account, the
token with its lifetime, the verified user. A lifetime is written in full, negative ones too.
-/

namespace ApigateBenchmark.AuthService

open Json GoJson

def Payload.denoted : Payload → Denoted
  | .error msg => .obj [("error", .str msg)]
  | .registered id email => .obj [("id", .str (goText id)), ("email", .str (goText email))]
  | .login accessToken tokenType expiresIn =>
      .obj [("access_token", .str (goText accessToken)), ("token_type", .str tokenType),
        ("expires_in", .num (integerLit expiresIn))]
  | .verified userID email => .obj [("user_id", .str (goText userID)), ("email", .str (goText email))]

theorem marshalText_denotes (text : String) :
    WritesDenoted (marshalString (Bytes.utf8 text)) (.str text) := by
  have htext := marshalString_denotes (Bytes.utf8 text)
  rw [goText_utf8] at htext
  exact htext

theorem Payload.marshal_denotes (payload : Payload) : WritesDenoted payload.marshal payload.denoted := by
  cases payload with
  | error msg => exact marshalStruct_denotes (.cons ⟨rfl, marshalText_denotes msg⟩ .nil)
  | registered id email =>
      exact marshalStruct_denotes <| .cons ⟨rfl, marshalString_denotes id⟩ <|
        .cons ⟨rfl, marshalString_denotes email⟩ .nil
  | login accessToken tokenType expiresIn =>
      exact marshalStruct_denotes <| .cons ⟨rfl, marshalString_denotes accessToken⟩ <|
        .cons ⟨rfl, marshalText_denotes tokenType⟩ <| .cons ⟨rfl, marshalInt_denotes expiresIn⟩ .nil
  | verified userID email =>
      exact marshalStruct_denotes <| .cons ⟨rfl, marshalString_denotes userID⟩ <|
        .cons ⟨rfl, marshalString_denotes email⟩ .nil

end ApigateBenchmark.AuthService
