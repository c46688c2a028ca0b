import ForwardProxy.Files.Fault

/-!
# Failures of certificates and keys
-/

namespace ForwardProxy.Certificate

/-- Why a file could not be used. -/
inductive IoCause
  /-- The system refused the operation. -/
  | system (fault : Files.Fault)
  /-- The content is not what it should be. -/
  | content (text : String)
  deriving DecidableEq, Repr

/-- The cause in words. -/
def IoCause.message : IoCause → String
  | system f => f.message
  | content t => t

/-- What can go wrong with a certificate or a key. -/
inductive Error
  | randomness (why : String)
  | keyGeneration (why : String)
  | creation (why : String)
  | io (path : String) (cause : IoCause)
  | missingPem (path label : String)
  | malformedKey (why : String)
  deriving DecidableEq, Repr

namespace Error

/-- The failure in words. -/
def message : Error → String
  | randomness why => "Failed to read random bytes: " ++ why
  | keyGeneration why => "Failed to generate key pair: " ++ why
  | creation why => "Failed to create certificate: " ++ why
  | io path cause => "I/O error on " ++ path ++ ": " ++ cause.message
  | missingPem path label => "No " ++ label ++ " block found in " ++ path
  | malformedKey why => "Malformed private key: " ++ why

end Error
end ForwardProxy.Certificate
