import CallGate.Operation.Registry

/-!
# The office catalog

The operations of a simulated office, service by service, and the registry that
holds them beside the operations on the queue of approvals.
-/

namespace CallGate.Catalog

/-- Looking at pages. -/
def browser : List (String × RiskClass) :=
  [("open", .read), ("read", .read), ("find", .read), ("click", .read),
    ("back", .read)]

/-- Chat. -/
def slack : List (String × RiskClass) :=
  [("list_channels", .read), ("open_channel", .read), ("fetch_thread", .read),
    ("send_message", .writeSafe), ("post", .writeSafe), ("react", .writeSafe)]

/-- Mail. -/
def mail : List (String × RiskClass) :=
  [("list", .read), ("open", .read), ("compose", .writeSafe),
    ("reply", .writeSafe), ("send", .writeRisky)]

/-- The calendar. -/
def calendar : List (String × RiskClass) :=
  [("list_events", .read), ("create_event", .writeSafe), ("accept", .writeSafe),
    ("decline", .writeSafe), ("update_event", .writeSafe),
    ("cancel_event", .writeRisky)]

/-- Documents. -/
def docs : List (String × RiskClass) :=
  [("list", .read), ("read", .read), ("search", .read), ("create", .writeSafe),
    ("update", .writeSafe)]

/-- Tickets. -/
def tickets : List (String × RiskClass) :=
  [("list", .read), ("get", .read), ("create", .writeSafe),
    ("update", .writeSafe), ("transition", .writeRisky),
    ("add_comment", .writeSafe)]

/-- Tables of data. -/
def db : List (String × RiskClass) :=
  [("list_tables", .read), ("describe_table", .read), ("query", .read),
    ("upsert", .writeRisky)]

/-- Orders, goods and payments. -/
def erp : List (String × RiskClass) :=
  [("list_pos", .read), ("get_po", .read), ("create_po", .writeSafe),
    ("receive_goods", .writeSafe), ("submit_invoice", .writeSafe),
    ("match_three_way", .read), ("post_payment", .writeRisky)]

/-- Contacts and deals. -/
def crm : List (String × RiskClass) :=
  [("list_contacts", .read), ("get_contact", .read),
    ("create_contact", .writeSafe), ("create_deal", .writeSafe),
    ("update_deal_stage", .writeSafe), ("log_activity", .writeSafe)]

/-- Accounts and groups. -/
def okta : List (String × RiskClass) :=
  [("list_users", .read), ("get_user", .read), ("list_groups", .read),
    ("assign_group", .writeSafe), ("suspend_user", .writeRisky),
    ("deactivate_user", .writeRisky)]

/-- Requests to the service desk. -/
def servicedesk : List (String × RiskClass) :=
  [("list_requests", .read), ("get_request", .read),
    ("update_request", .writeSafe)]

/-- The services of the office. -/
def services : List (String × List (String × RiskClass)) :=
  [("browser", browser), ("slack", slack), ("mail", mail),
    ("calendar", calendar), ("docs", docs), ("tickets", tickets), ("db", db),
    ("erp", erp), ("crm", crm), ("okta", okta), ("servicedesk", servicedesk)]

/-- The operations of the office. -/
def entries : List (OperationId × RiskClass) :=
  services.flatMap fun (service, operations) =>
    operations.map fun (name, risk) => (⟨service, name⟩, risk)

end CallGate.Catalog

namespace CallGate

/-- The registry of the office, or what is wrong with its catalog. -/
def Registry.office : Except RegistryError Registry :=
  Registry.controls.registerAll Catalog.entries

end CallGate
