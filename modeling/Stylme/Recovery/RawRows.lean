-- SUMMARY: Source rows as any caller may give them, with values of every type, and how they relate to those read from checkouts.
import Stylme.Domain.Latest
import Stylme.Recovery.Source

/-!
# Raw rows

`validate_and_dedupe_source` takes dictionaries. Their identifiers and addresses may be of any type,
and their instants aware, naive, a text or nothing of the kind. A run gives it the rows that it has
read from the checkouts, which are some of these.
-/

namespace Stylme

open Conc Backend

namespace Recovery

namespace Raw

/-! ## Instants -/

/-- An aware `datetime` -/
structure Moment where
  /-- The date and the time that it shows -/
  wall : Time
  /-- `utcoffset()` -/
  offset : ℤ

def Moment.instant (m : Moment) : Time := m.wall - m.offset

/-- A value where an instant is expected. -/
inductive Stamp where
  | aware (m : Moment)
  /-- A `datetime` without a time zone -/
  | naive (wall : Time)
  | text (s : String)
  | other (v : Value)

/-- `value.replace("Z", "+00:00")` -/
def zulu (s : String) : String :=
  String.ofList (s.toList.flatMap fun c => if c = 'Z' then "+00:00".toList else [c])

-- `datetime.fromisoformat` gives the date and time that a text shows, and its offset if it has one.
variable (lib : Library) (fromisoformat : String → Option (Time × Option ℤ))

/-- `parse_datetime` -/
def parseDatetime : Stamp → Option Moment
  | .aware m => some m
  | .naive wall => some ⟨wall, 0⟩
  | .text s => (fromisoformat (zulu s)).map fun (wall, offset) => ⟨wall, offset.getD 0⟩
  | .other _ => none

/-! ## Rows -/

/-- A row that is given, with what else it holds. -/
structure Row (ρ : Type) where
  externalID : Value
  contactPhone : Option String
  updatedAt : Stamp
  recoveryURL : Value
  rest : ρ

/-- A row whose phone number and instant have been replaced. -/
structure ValidRow (ρ : Type) where
  externalID : Value
  contactPhone : String
  updatedAt : Moment
  recoveryURL : Value
  rest : ρ

variable {ρ : Type}

/-- The row as it is returned. -/
def ValidRow.row (row : ValidRow ρ) : Row ρ :=
  ⟨row.externalID, some row.contactPhone, .aware row.updatedAt, row.recoveryURL, row.rest⟩

/-- `str(v or "").strip()` -/
def stripped (v : Value) : String := strip ((v.orElse (.str "")).toStr lib.repr)

/-- One round of the loop of `validate_and_dedupe_source`: the valid row, or why it is none. -/
def validateRow (row : Row ρ) : Except String (ValidRow ρ) :=
  let recoveryURL := stripped lib row.recoveryURL
  if stripped lib row.externalID = "" then .error "missing_external_id"
  else if row.contactPhone.getD "" = "" then .error "missing_phone"
  else match normalizeE164 lib row.contactPhone, parseDatetime fromisoformat row.updatedAt with
    | none, _ => .error "invalid_phone"
    | some _, none => .error "invalid_updated_at"
    | some phone, some updatedAt =>
      if recoveryURL = "" then .error "missing_recovery_url"
      else if "https://".toList <+: recoveryURL.toList ∨ "http://localhost".toList <+: recoveryURL.toList then
        .ok ⟨row.externalID, phone, updatedAt, row.recoveryURL, row.rest⟩
      else .error "invalid_recovery_url"

/-- The error of a row that is not valid. -/
def sourceError (row : Row ρ) (code : String) : RunError where
  externalID := if stripped lib row.externalID = "" then none else some (stripped lib row.externalID)
  stage := "source"
  code := code
  retryable := false

/-- The loop of `validate_and_dedupe_source` over the rows. -/
def validateRows : List (Row ρ) → List (ValidRow ρ) × List RunError
  | [] => ([], [])
  | row :: rows =>
    let (valid, errors) := validateRows rows
    match validateRow lib fromisoformat row with
    | .ok row => (row :: valid, errors)
    | .error code => (valid, sourceError lib row code :: errors)

/-- `validate_and_dedupe_source` -/
def validateAndDedupeSource (rows : List (Row ρ)) : List (ValidRow ρ) × List RunError × ℕ :=
  let (valid, errors) := validateRows lib fromisoformat rows
  let latest := latestOf (·.contactPhone) (·.updatedAt.instant) valid
  (latest.insertionSort fun a b => b.updatedAt.instant ≤ a.updatedAt.instant, errors, valid.length)

end Raw

end Recovery

end Stylme
