-- SUMMARY: From abandoned checkouts to the rows of a recovery run: the calling window, secrets, phone numbers and deduplication.
import Stylme.Recovery.Store

/-!
# The source of a run

The rows of a run are read from the stored checkouts. Reading one decrypts its
recovery token, which raises when the token cannot be decrypted; what is merely
incomplete becomes an error of the run.
-/

namespace Stylme

open Backend

namespace Recovery

variable (lib : Library)

/-! ## The calling window -/

/-- `within_calling_window` -/
def withinCallingWindow (now : Time) (calling : CallingConfig) : Except Raised Bool := do
  let zone := if calling.timezone ≠ "" then calling.timezone else "Asia/Kolkata"
  let current ← lib.localTime now zone
  let start := (lib.parseTime calling.windowStart).getD (9 * 3600 * 1000000)
  let stop := (lib.parseTime calling.windowEnd).getD (20 * 3600 * 1000000)
  return if start < stop then start ≤ current ∧ current < stop else start ≤ current ∨ current < stop

/-! ## Secrets -/

/-- `decrypt_secret` -/
def decryptSecret (value : Option String) : Except Raised (Option String) :=
  match value with
  | none | some "" => .ok none
  | some value =>
    if lib.keyMaterial.length < 32 then
      .error ⟨"RuntimeError", "Checkout-recovery secret encryption is not configured"⟩
    else match lib.decrypt value with
      | some secret => .ok (some secret)
      | none => .error ⟨"SecretDecryptionError", "Encrypted integration secret cannot be read"⟩

structure Secrets where
  cronSecret : Option String
  orgAPIKey : Option String
  zepicAPIToken : Option String

/-- `runtime_secrets` -/
def runtimeSecrets (config : Config) : Except Raised Secrets := do
  let cronSecret ←
    if lib.cronSecret ≠ "" then .ok (some lib.cronSecret)
    else decryptSecret lib config.cronSecretEncrypted
  let orgAPIKey ← decryptSecret lib config.samora.orgAPIKeyEncrypted
  let zepicAPIToken ← decryptSecret lib (config.delivery.provider.bind (·.apiTokenEncrypted))
  return ⟨cronSecret, orgAPIKey, zepicAPIToken⟩

/-! ## Texts -/

/-- The characters that `str.strip` and `str.split` take for whitespace. -/
def isSpace (c : Char) : Bool :=
  (9 ≤ c.toNat ∧ c.toNat ≤ 13) ∨ (28 ≤ c.toNat ∧ c.toNat ≤ 32) ∨ c.toNat = 133 ∨ c.toNat = 160 ∨
    c.toNat = 5760 ∨ (8192 ≤ c.toNat ∧ c.toNat ≤ 8202) ∨ c.toNat = 8232 ∨ c.toNat = 8233 ∨
    c.toNat = 8239 ∨ c.toNat = 8287 ∨ c.toNat = 12288

/-- `l` without the elements at its end that satisfy `p`. -/
def dropRight {α : Type} (p : α → Bool) (l : List α) : List α := (l.reverse.dropWhile p).reverse

/-- `s.strip()` -/
def strip (s : String) : String := String.ofList (dropRight isSpace (s.toList.dropWhile isSpace))

/-- `s.rstrip("/")` -/
def stripSlash (s : String) : String := String.ofList (dropRight (· = '/') s.toList)

/-- An amount of paise in rupees, with two decimals. -/
def rupees (paise : ℕ) : String :=
  toString (paise / 100) ++ "." ++ (if paise % 100 < 10 then "0" else "") ++ toString (paise % 100)

/-! ## Phone numbers -/

/-- `E164_RE.fullmatch` -/
def matchesE164 (s : String) : Bool :=
  match s.toList with
  | '+' :: d :: digits => ('1' ≤ d ∧ d ≤ '9') ∧ (7 ≤ digits.length ∧ digits.length ≤ 14) ∧
      digits.all fun c => '0' ≤ c ∧ c ≤ '9'
  | _ => false

/-- `normalize_e164` -/
def normalizeE164 (value : Option String) : Option String :=
  match value with
  | none => none
  | some value =>
    let raw := (strip value).toList
    if raw = [] then none
    else
      let raw := if ['0', '0'] <+: raw then '+' :: raw.drop 2 else raw
      let digits := raw.filter lib.isDigit
      let candidate :=
        if ['+'] <+: raw then '+' :: digits
        else if digits.length = 10 then ['+', '9', '1'] ++ digits
        else if digits.length = 11 ∧ ['0'] <+: digits then ['+', '9', '1'] ++ digits.drop 1
        else '+' :: digits -- also for twelve digits after the country code
      if matchesE164 (String.ofList candidate) then some (String.ofList candidate) else none

/-! ## Source rows -/

/-- An instant as it is stored or sent. -/
inductive Stamp where
  | absent
  | datetime (t : Time)
  | text (s : String)

/-- `parse_datetime` -/
def Stamp.parse : Stamp → Option Time
  | absent => none
  | datetime t => some t
  | text s => lib.parseDatetime s

structure RowItem where
  title : String
  quantity : ℕ
  price : String

/-- What `source_row` makes of a checkout. -/
structure SourceRow where
  checkoutID : String
  externalID : String
  updatedAt : Stamp
  abandonedAt : Time
  contactPhone : Option String
  customerEmail : Option String
  customerName : Option String
  firstName : String
  lastName : String
  shopName : String
  cartValue : String
  cartTotal : String
  currency : String
  itemCount : ℕ
  topItem : Option String
  productTitles : String
  recoveryURL : Option String
  items : List RowItem
  checkoutObjectID : ObjectId

/-- `source_row` -/
def sourceRow (document : Checkout) : Except Raised SourceRow := do
  let token ← decryptSecret lib document.recoveryTokenEncrypted
  let recoveryURL := (token.filter (· ≠ "")).map fun token =>
    stripSlash lib.storefrontURL ++ "/checkout/recover/" ++ token
  let name := (strip (document.customerName.getD "")).toList
  return {
    checkoutID := document.checkoutID
    externalID := document.externalID
    updatedAt := .datetime document.updatedAt
    abandonedAt := document.eligibleAt
    contactPhone := document.contactPhone
    customerEmail := document.customerEmail
    customerName := document.customerName
    firstName := String.ofList (name.takeWhile (¬ isSpace ·))
    lastName := String.ofList ((name.dropWhile (¬ isSpace ·)).dropWhile isSpace)
    shopName := "StylMe"
    cartValue := rupees document.cartValuePaise
    cartTotal := lib.formatTotal document.cartValuePaise
    currency := document.currency
    itemCount := document.itemCount
    topItem := document.topItem
    productTitles := ", ".intercalate document.productTitles
    recoveryURL
    items := document.items.map fun item => ⟨item.title, item.quantity, rupees item.pricePaise⟩
    checkoutObjectID := document.id }

/-- The rows of the checkouts, unless one of them raises. -/
def sourceRows : List Checkout → Except Raised (List SourceRow)
  | [] => .ok []
  | document :: rest => do
    let row ← sourceRow lib document
    let rows ← sourceRows rest
    return row :: rows

/-! ## Validation -/

/-- A source row whose phone number and instant are valid. -/
structure Row where
  source : SourceRow
  contactPhone : String
  updatedAt : Time

/-- One round of the loop of `validate_and_dedupe_source`: the valid row, or why it is none. -/
def validateRow (row : SourceRow) : Except String Row :=
  let externalID := strip row.externalID
  let recoveryURL := strip (row.recoveryURL.getD "")
  if externalID = "" then .error "missing_external_id"
  else if row.contactPhone.getD "" = "" then .error "missing_phone"
  else match normalizeE164 lib row.contactPhone, row.updatedAt.parse lib with
    | none, _ => .error "invalid_phone"
    | some _, none => .error "invalid_updated_at"
    | some phone, some updatedAt =>
      if recoveryURL = "" then .error "missing_recovery_url"
      else if "https://".toList <+: recoveryURL.toList ∨
        "http://localhost".toList <+: recoveryURL.toList then .ok ⟨row, phone, updatedAt⟩
      else .error "invalid_recovery_url"

/-- The error of a row that is not valid. -/
def sourceError (row : SourceRow) (code : String) : RunError where
  externalID := if strip row.externalID = "" then none else some (strip row.externalID)
  stage := "source"
  code := code
  retryable := false

/-- The loop of `validate_and_dedupe_source` over the rows. -/
def validateRows : List SourceRow → List Row × List RunError
  | [] => ([], [])
  | row :: rows =>
    let (valid, errors) := validateRows rows
    match validateRow lib row with
    | .ok row => (row :: valid, errors)
    | .error code => (valid, sourceError row code :: errors)

/-- Remember the latest row of each phone number. -/
def latestRow (latest : List (String × Row)) (row : Row) : List (String × Row) :=
  match latest.lookup row.contactPhone with
  | some current =>
    if current.updatedAt < row.updatedAt then setKey row.contactPhone row latest else latest
  | none => setKey row.contactPhone row latest

/-- `validate_and_dedupe_source` -/
def validateAndDedupeSource (rows : List SourceRow) : List Row × List RunError × ℕ :=
  let (valid, errors) := validateRows lib rows
  let latest := (valid.foldl latestRow []).map (·.2)
  (latest.insertionSort fun a b => b.updatedAt ≤ a.updatedAt, errors, valid.length)

end Recovery

end Stylme
