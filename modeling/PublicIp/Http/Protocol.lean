import PublicIp.Http.Basic
import PublicIp.Text.Base64

/-!
# What client and agent agree on

The paths of the two calls, and the header fields that go with them.
-/

namespace PublicIp.Http

def invokePath : String := "/PublicIPAddressAgent/Invoke"

def precheckPath : String := "/PublicIPAddressAgent/Precheck"

/-- The header field that names the subscription. -/
def subscriptionField : String := "x-subscription-id"

def authorizationField : String := "authorization"

def contentTypeField : String := "content-type"

/-- The value of the authorization field that shows a token. -/
def bearer (token : String) : String := "Bearer " ++ token

theorem isVisible_bearer (token : String) : isVisible (bearer token) = isVisible token := by
  have own : isVisible "Bearer " = true := by decide
  unfold isVisible at own ⊢
  rw [bearer, String.toList_append, List.all_append, own, Bool.true_and]

/-- The value of the authorization field that shows a user and a password, which a colon separates. -/
def basic (user : String) : String :=
  let shown := if user.toList.contains ':' then user else user ++ ":"
  "Basic " ++ String.ofList (Text.base64 shown.toUTF8.toList)

end PublicIp.Http
