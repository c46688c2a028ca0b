import ForwardProxy.Certificate.Error
import ForwardProxy.Http.Status

/-!
# Failures of interception
-/

namespace ForwardProxy.Interception

/-- What can go wrong when TLS connections are intercepted. -/
inductive Error
  /-- The certificate authority could not be loaded or made. -/
  | bootstrap (cause : Certificate.Error)
  /-- The stored certificate belongs to no certificate authority. -/
  | invalidCa (path : String)
  /-- The CONNECT request names no host and port. -/
  | invalidTarget (why : String)
  /-- No certificate could be obtained for the host. -/
  | hostKeyPair (host : String) (cause : Certificate.Error)
  | tls (why : String)
  | io (why : String)
  deriving DecidableEq, Repr

namespace Error

/-- The failure in words. -/
def message : Error → String
  | bootstrap cause => "Interceptor bootstrap failed: " ++ cause.message
  | invalidCa path => "Certificate " ++ path ++ " is not a certificate authority"
  | invalidTarget why => "Invalid interception target: " ++ why
  | hostKeyPair host cause =>
    "Failed to obtain certificate for '" ++ host ++ "': " ++ cause.message
  | tls why => "TLS error: " ++ why
  | io why => "I/O error: " ++ why

/-- The status with which a client hears of the failure. -/
def status : Error → Http.Status
  | invalidTarget _ => 400
  | hostKeyPair _ _ | tls _ | io _ => 502
  | bootstrap _ | invalidCa _ => 500

end Error
end ForwardProxy.Interception
