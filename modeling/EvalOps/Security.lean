import EvalOps.Api.Create
import EvalOps.Obs.Middleware

/-!
# `EvalOps.Security`: the API key

`security/settings.py`, `security/auth.py`, and what `create_app` of `api/main.py` decides from
them. A request reaches the dependency as the credentials that `HTTPBearer` finds in its
`Authorization` header.
-/

set_option autoImplicit false

namespace EvalOps.Security

open Obs Watched

/-- `_split_origins`. -/
def splitOrigins (raw : Option String) : List String :=
  match raw with
  | none => []
  | some raw =>
      if PyText.isBlank raw then []
      else ((raw.splitOn ",").filter fun origin => !PyText.isBlank origin).map PyText.strip

/-- `SecuritySettings`. -/
structure SecuritySettings where
  apiKey : Option String
  corsAllowOrigins : List String

/-- `SecuritySettings.from_env`. A blank key counts as no key, and any other is kept as it is. -/
def SecuritySettings.fromEnv (environ : String → Option String) : SecuritySettings where
  apiKey := (environ "EVALOPS_API_KEY").filter fun rawKey => !PyText.isBlank rawKey
  corsAllowOrigins := splitOrigins (environ "EVALOPS_CORS_ALLOWED_ORIGINS")

/-- `validate_production_config`. -/
def validateProductionConfig (environment : String) (security : SecuritySettings) : Py Unit :=
  if environment = "production" ∧ security.apiKey = none then
    throw ⟨.other "ProductionConfigError",
      "EVALOPS_API_KEY must be set when EVALOPS_ENV=production " ++
        "(refusing to start an unauthenticated production API)"⟩
  else pure ()

/-- The pages of the interactive documentation, and the origins of `CORSMiddleware`. -/
structure ApiSurface where
  docsUrl : Option String
  redocUrl : Option String
  openapiUrl : Option String
  corsAllowOrigins : List String

/-- What `create_app` decides from the environment. -/
def createApp (environ : String → Option String) : Py ApiSurface := do
  let environment := (environ "EVALOPS_ENV").getD "development"
  let security := SecuritySettings.fromEnv environ
  validateProductionConfig environment security
  let isProduction := decide (environment = "production")
  pure
    { docsUrl := if isProduction then none else some "/docs"
      redocUrl := if isProduction then none else some "/redoc"
      openapiUrl := if isProduction then none else some "/openapi.json"
      corsAllowOrigins := security.corsAllowOrigins }

/-- `HTTPAuthorizationCredentials`. -/
structure Credentials where
  scheme : String
  credentials : String

/-- `hmac.compare_digest` on two texts. -/
def compareDigest (a b : String) : Py Bool :=
  if (a.toList ++ b.toList).all fun c => decide (c.toNat < 128) then pure (decide (a = b))
  else throw ⟨.other "TypeError",
    "comparing strings with non-ASCII characters is not supported"⟩

/-- `_UNAUTHORIZED`. -/
def unauthorized : PyError := httpException 401 "Missing or invalid API key."

/-- `require_api_key`. The scheme is compared in lower case. -/
def requireApiKey (unicodeAlnum : Char → Bool) (environ : String → Option String)
    (credentials : Option Credentials) : HttpTx Unit :=
  let reject (reason : String) : HttpTx Unit := do
    emit fun context => [logEvent unicodeAlnum "evalops.security" "api_auth_failed" .warning
      [("reason", .str reason)] context]
    throw unauthorized
  match (SecuritySettings.fromEnv environ).apiKey with
  | none => pure ()
  | some configured =>
      match credentials with
      | none => reject "missing_credentials"
      | some given => do
          if WireText.lower given.scheme ≠ "bearer" then reject "missing_credentials"
          else
            let same ← Effect.lift (compareDigest given.credentials configured)
            if same then pure () else reject "key_mismatch"

end EvalOps.Security
