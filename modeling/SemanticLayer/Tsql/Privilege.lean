import SemanticLayer.Tsql.Body
/-!
Reading statements about what users may do. Nothing of such a statement is kept; it only has to be
told from a text that is no statement.
-/
namespace SemanticLayer.Tsql

namespace Reader

variable (inner : Inner)

/-! ## Privileges -/

/-- Privileges of their own words. -/
def plainPrivileges : List String :=
  ["IMPORTED PRIVILEGES", "ADD SEARCH OPTIMIZATION", "ATTACH LISTING", "ATTACH POLICY",
    "BIND SERVICE ENDPOINT", "EVOLVE SCHEMA", "IMPORT SHARE", "MANAGE VERSIONS", "MANAGE RELEASES",
    "OVERRIDE SHARE RESTRICTIONS", "PURCHASE DATA EXCHANGE LISTING", "RESOLVE ALL", "READ SESSION",
    "APPLYBUDGET", "AUDIT", "CONNECT", "DELETE", "FAILOVER", "OPERATE", "READ", "REPLICATE",
    "TEMPORARY", "TRIGGER", "TRUNCATE", "USAGE", "OWNERSHIP", "DROP"]

def creatable : List String :=
  ["APPLICATION PACKAGE", "COMPUTE POOL", "DATA EXCHANGE LISTING", "EXTERNAL VOLUME",
    "FAILOVER GROUP", "NETWORK POLICY", "ORGANIZATION LISTING", "REPLICATION GROUP", "ACCOUNT",
    "APPLICATION", "DATABASE", "INTEGRATION", "ROLE", "SCHEMA", "SHARE", "USER", "WAREHOUSE"]

def executable : List String :=
  ["DATA METRIC FUNCTION", "MANAGED ALERT", "MANAGED TASK", "ALERT", "TASK"]

def applicable : List String :=
  ["AGGREGATION POLICY", "AUTHENTICATION POLICY", "JOIN POLICY", "MASKING POLICY",
    "PACKAGES POLICY", "PASSWORD POLICY", "PROJECTION POLICY", "ROW ACCESS POLICY",
    "SESSION POLICY", "TAG"]

def manageable : List String :=
  ["ACCOUNT SUPPORT CASES", "EVENT SHARING", "GRANTS", "LISTING AUTO FULFILLMENT",
    "ORGANIZATION SUPPORT CASES", "USER SUPPORT CASES", "WAREHOUSES"]

def expectPhrase (what : String) (phrases : List String) : Reader Unit := do
  if (← takePhrase phrases).isNone then expected what

def privilege : Reader Unit := do
  if ← takeKeywords ["DATABASE", "ROLE"] then skip objectName
  else if (← takePhrase plainPrivileges).isSome then pure ()
  else
    match ← takeOneOf ["APPLY", "CREATE", "EXEC", "EXECUTE", "INSERT", "MANAGE", "MODIFY", "MONITOR",
        "REFERENCES", "ROLE", "SELECT", "UPDATE"] with
    | some "APPLY" => expectPhrase "GRANT APPLY type" applicable
    | some "CREATE" => skip (takePhrase creatable)
    | some "EXEC" => skip (takePhrase executable)
    | some "EXECUTE" => skip (takePhrase executable)
    | some "MANAGE" => expectPhrase "GRANT MANAGE type" manageable
    | some "MODIFY" =>
      skip (takePhrase ["LOG LEVEL", "TRACE LEVEL", "SESSION LOG LEVEL", "SESSION TRACE LEVEL"])
    | some "MONITOR" => skip (takeOneOf ["EXECUTION", "SECURITY", "USAGE"])
    | some "ROLE" => skip objectName
    | some _ => skip columns?
    | none => expected "a privilege keyword"

/-! ## Objects and users -/

/-- All objects of a kind in a schema or database, and kinds of two words. -/
def objectGroups : List String :=
  ["ALL TABLES IN SCHEMA", "ALL EXTERNAL TABLES IN SCHEMA", "ALL VIEWS IN SCHEMA",
    "ALL MATERIALIZED VIEWS IN SCHEMA", "ALL FUNCTIONS IN SCHEMA", "FUTURE SCHEMAS IN DATABASE",
    "FUTURE TABLES IN SCHEMA", "FUTURE EXTERNAL TABLES IN SCHEMA", "FUTURE VIEWS IN SCHEMA",
    "FUTURE MATERIALIZED VIEWS IN SCHEMA", "ALL SEQUENCES IN SCHEMA", "FUTURE SEQUENCES IN SCHEMA",
    "RESOURCE MONITOR", "COMPUTE POOL", "FAILOVER GROUP", "REPLICATION GROUP", "EXTERNAL VOLUME"]

def objectKinds : List String :=
  ["SEQUENCE", "DATABASE", "SCHEMA", "TABLE", "VIEW", "WAREHOUSE", "INTEGRATION", "USER",
    "CONNECTION", "PROCEDURE", "FUNCTION"]

def privilegeObjects : Reader Unit := do
  if (← takePhrase objectGroups).isSome then skip (commaList objectName)
  else
    let kind ← takeOneOf objectKinds
    skip (commaList objectPattern)
    if ["PROCEDURE", "FUNCTION"].contains (kind.getD "") then
      if ← atSign "(" then skip (inParentheses (commaListUntil ")" (dataType inner)))

def privileges : Reader Bool := do
  if ← takeKeyword "ALL" then skip (takeKeyword "PRIVILEGES")
  else skip (commaList privilege)
  pure (← behind? ["ON"] (privilegeObjects inner)).isSome

def grantee : Reader Unit := do
  skip (takePhrase ["ROLE", "USER", "SHARE", "GROUP", "DATABASE ROLE", "APPLICATION ROLE",
    "APPLICATION"])
  skip objectName
  if ← takeSign ":" then skip ident

def grantees : Reader Unit :=
  skip (commaList grantee)

/-! ## Statements -/

/-- What becomes of what depends on something, or nothing. -/
def cascade : Reader Unit :=
  skip (takeOneOf ["CASCADE", "RESTRICT"])

def grant : Reader Unit := do
  skip (privileges inner)
  expectKeyword "TO"
  grantees
  skip (takePhrase ["WITH GRANT OPTION"])
  skip (takePhrase ["COPY CURRENT GRANTS", "REVOKE CURRENT GRANTS"])
  namedBy "AS"
  skip (behind? ["GRANTED", "BY"] ident)

def denial : Reader Unit := do
  unless ← privileges inner do refuse "DENY statements must specify an object"
  expectKeyword "TO"
  grantees
  cascade
  namedBy "AS"

def revocation : Reader Unit := do
  skip (privileges inner)
  expectKeyword "FROM"
  grantees
  skip (behind? ["GRANTED", "BY"] ident)
  cascade

end Reader

end SemanticLayer.Tsql
