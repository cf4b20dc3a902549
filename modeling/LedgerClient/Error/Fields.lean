import LedgerClient.Error.Kind
import LedgerClient.Value.Number

/-!
# What errors keep

An error keeps, by its kind, the values that callers branch on: the URL of a request, the status
of a response, the name of a field. These values may have any shape, because a caller can make an
error, too; only a status has to be a number, since it decides whether another attempt is worth it.
-/

namespace LedgerClient

/-- 429 and 5xx are worth another attempt. -/
def isRetryableStatus (status : Int) : Bool :=
  status = 429 || (decide (500 ≤ status) && decide (status < 600))

theorem isRetryableStatus_429 : isRetryableStatus 429 = true := by decide

/-- A status of any numeric type goes by its value. -/
def isRetryableValue (status : Value) : Except Fault Bool := do
  if ← status.equalsInt 429 then return true
  match ← status.orderWith 500 with
  | some .lt | none => return false
  | _ => status.isBelow 600

theorem isRetryableValue_int (n : Int) : isRetryableValue (.int n) = .ok (isRetryableStatus n) := by
  unfold isRetryableValue isRetryableStatus
  simp only [Value.equalsInt_int, Value.isBelow_int, Value.orderWith, Value.integer?, bind,
    Except.bind, pure, Except.pure]
  by_cases h : n = 429
  · simp [h]
  · by_cases low : n < 500
    · have high : ¬500 ≤ n := by omega
      simp [h, compare, compareOfLessAndEq, low, high]
    · have high : 500 ≤ n := by omega
      by_cases eq : n = 500
      · subst eq
        rfl
      · by_cases top : n < 600
        · simp [h, compare, compareOfLessAndEq, low, high, top, eq]
        · by_cases bound : n = 600 <;>
            simp [h, compare, compareOfLessAndEq, low, high, top, eq, bound]

/-- A comparison that cannot be made does not hold. -/
def isSettled (r : Except Fault Bool) : Bool :=
  match r with
  | .ok b => b
  | .error _ => false

inductive ErrorFields where
  | general (recoverable details : Value)
  | transport (url : Value)
  | api (status errorCode message body url : Value)
  | decoding (body : Value)
  | encoding (field : Value)
  | crypto
  | invalidKey
  | invalidSignature
  | confirmationTimeout (hash attempts interval : Value)
  | configuration (parameter : Value)

namespace ErrorFields

def kind : ErrorFields → ErrorKind
  | .general .. => .general
  | .transport _ => .transport
  | .api .. => .api
  | .decoding _ => .decoding
  | .encoding _ => .encoding
  | .crypto => .crypto
  | .invalidKey => .invalidKey
  | .invalidSignature => .invalidSignature
  | .confirmationTimeout .. => .confirmationTimeout
  | .configuration _ => .configuration

/-- The error is transient: no response arrived, or the service was busy. -/
def isRetryable : ErrorFields → Bool
  | .transport _ => true
  | .api status .. => isSettled (isRetryableValue status)
  | _ => false

/-- The operation might succeed if the caller repeats it. An error of the general kind says so
itself, with a value of any shape. -/
def recoverable : ErrorFields → Value
  | .general recoverable _ => recoverable
  | .confirmationTimeout .. => .bool true
  | fields => .bool fields.isRetryable

theorem recoverable_of_isRetryable {fields : ErrorFields} (h : fields.isRetryable = true) :
    fields.recoverable = .bool true := by
  cases fields <;> simp_all [isRetryable, recoverable]

/-- Whether there is a status, and it is a given one. -/
def hasStatus (wanted : Int) : ErrorFields → Bool
  | .api status .. => isSettled (status.equalsInt wanted)
  | _ => false

def isServerError : ErrorFields → Bool
  | .api status .. =>
    isSettled (status.isBelow 600) && isSettled ((status.isBelow 500).map not)
  | _ => false

def detail (present : Bool) (name : String) (v : Value) : Value :=
  if present then Value.record [(name, v)] else .dict []

/-- The details that callers branch on. An empty value leaves none, except for an empty body. -/
def details : ErrorFields → Value
  | .general _ details => if details.truthy then details else .dict []
  | .transport url => detail url.truthy "url" url
  | .api status errorCode _ _ url =>
    Value.record [("status_code", status), ("error_code", errorCode), ("url", url)]
  | .decoding body => detail (!body.isNull) "body" body
  | .encoding field => detail field.truthy "field" field
  | .confirmationTimeout hash attempts interval =>
    Value.record [("tx_hash", hash), ("attempts", attempts), ("interval", interval)]
  | .configuration parameter => detail parameter.truthy "param" parameter
  | _ => .dict []

/-- The values by the names under which callers find them. -/
def attributes : ErrorFields → List (String × Value)
  | .transport url => [("url", url)]
  | .api status errorCode message body url =>
    [("status_code", status), ("error_code", errorCode), ("api_message", message), ("body", body),
      ("url", url)]
  | .decoding body => [("body", body)]
  | .encoding field => [("field_name", field)]
  | .confirmationTimeout hash attempts interval =>
    [("tx_hash", hash), ("attempts", attempts), ("interval", interval)]
  | .configuration parameter => [("param_name", parameter)]
  | _ => []

end ErrorFields

end LedgerClient
