/-!
# An example of settings

A document that sets every field.
-/

namespace CallGate.Settings

/-- A document that sets every field. -/
def exampleText : String :=
  r#"[session]
id = "vendor-quote-episode"
seed = 42042
mode = "sim"

[session.service_modes]
erp = "replay"

[policy]
write_safe_enabled = true
hard_block = ["erp.post_payment"]
pre_granted = []

[policy.overrides]
"tickets.create" = "require_approval"

[live]
allow_write_safe = false
allow_write_risky = false
block_ops = ["okta.deactivate_user"]

[approvals]
match = "operation"

[runner]
max_jumps = 8
max_step_executions = 256

[receipts]
type = "sqlite"
path = "vei-receipts.sqlite"
journal_mode = "wal"
sync_mode = "full"
busy_timeout_ms = 5000

[audit]
type = "file"
path = "vei-audit.jsonl"
"#

end CallGate.Settings
