import CallGate.Proofs.Session.Blocked
import CallGate.Proofs.Settings.Listed

/-!
# Blocks, from the document to the calls

What a document and the environment block stays blocked in every session that
is made from them: the settings lose nothing of it, the configuration of the
session is that of the settings, and neither the gate nor the guard lets
anything through that their configuration blocks.
-/

namespace CallGate

namespace Settings

/-- What bars an operation of a class from live backends: the document or the
variable lists it, or the flag for writes of its class is off. -/
inductive BarsLive (env : Environment) (document : Tree)
    (operation : OperationId) : RiskClass → Prop where
  | listed {risk : RiskClass}
      (h : operation ∈ Tree.listed (document.live? "block_ops")) :
      BarsLive env document operation risk
  | listedInVariable {risk : RiskClass} (h : VariableLists env operation) :
      BarsLive env document operation risk
  | writeSafe (h : FlagOff env document writeSafeVariable "allow_write_safe") :
      BarsLive env document operation .writeSafe
  | writeRisky
      (h : FlagOff env document writeRiskyVariable "allow_write_risky") :
      BarsLive env document operation .writeRisky

variable {env : Environment} {document : Tree} {written settings : Settings}
  {operation : OperationId} {risk : RiskClass}

/-- The guard of the settings refuses what is barred. -/
theorem BarsLive.refused (h : BarsLive env document operation risk)
    (hfollows : written.Follows document)
    (hoverrides : Overrides env written settings) :
    ∃ reason, settings.session.guard.refusal? operation risk =
      some reason := by
  have hlisted
      (hblock : settings.session.guard.hardBlock.contains operation = true) :
      ∃ reason, settings.session.guard.refusal? operation risk =
        some reason := by
    rw [LiveGuard.refusal?, if_pos hblock]
    exact ⟨_, rfl⟩
  have hdisabled (hoff : settings.session.guard.allows risk = false) :
      ∃ reason, settings.session.guard.refusal? operation risk =
        some reason := by
    rw [LiveGuard.refusal?, hoff]
    split <;> exact ⟨_, rfl⟩
  cases h with
  | listed h => exact hlisted (hoverrides.keeps _ (hfollows.live _ h))
  | listedInVariable h => exact hlisted (hoverrides.adds _ h)
  | writeSafe h =>
      exact hdisabled (h.eq_false hfollows.writeSafe_eq hoverrides.writeSafe)
  | writeRisky h =>
      exact hdisabled (h.eq_false hfollows.writeRisky_eq hoverrides.writeRisky)

/-- In every run of every session that is made from settings, read from the
text of a document, overridden by the environment and found to fit together: a
call of an operation that the document lists as blocked by the policy is denied
and reaches no adapter, and a call of a service in live mode that the document
or the environment bars from live backends is not shown to one.  Writes of a
class are barred if the variable of their flag says no, or is not set while the
document has no such flag, does not put it on, or has no section for it. -/
theorem blocks_hold_from_document {text : String} {document : Tree}
    {env : Environment} {isDirectory : String → Bool}
    {written settings : Settings} (hdocument : Toml.read? text = some document)
    (hwritten : ofToml text = .ok written)
    (hsettings : written.override env = .ok settings)
    (hcheck : settings.check isDirectory = .ok ())
    {setup : SessionSetup} (hconfig : setup.config = settings.sessionConfig)
    (hregistry : Registry.office = .ok setup.registry)
    (snapshot : Json) (clock : Clock) (sink : ReceiptSink)
    (actions : List SessionAction) :
    let calls := setup.takings
      (Session.start setup snapshot clock sink).state actions
    (∀ x ∈ calls, x.operation ∈ Tree.listed (document.policy? "hard_block") →
      x.taken.executed.decision = .deny .hardBlocked ∧
        setup.Withholds x.operation x.args x.found x.taken) ∧
    ∀ x ∈ calls, setup.config.modes.of x.operation.service = .live →
      BarsLive env document x.operation x.taken.request.risk →
        x.KeptFromBackend setup := by
  intro calls
  have hbuilt : setup.registry.Built :=
    Registry.Built.controls.registerAll hregistry
  have hfollows := follows_of_ofToml hdocument hwritten
  have hoverrides := overrides_of_override hsettings
  constructor
  · intro x hx hlisted
    have hblock := hfollows.policy x.operation hlisted
    obtain ⟨spec, members, e, htakes⟩ :=
      SessionSetup.take_eq_ok (SessionSetup.valid_of_mem_takings hx)
    have hfits := hbuilt.fits htakes.spec_eq
    rw [← hoverrides.policy_eq] at hblock
    have hroute : spec.route = .adapter := by
      rcases hfits with ⟨-, risk, rfl⟩ | ⟨c, hcontrol, rfl⟩
      · rfl
      · exact absurd (congrArg OperationId.service hcontrol)
          (service_ne_of_check hcheck hblock)
    refine htakes.hardBlocked hroute ?_
    rw [hconfig, hfits.id_eq]
    exact hblock
  · intro x hx hlive hbars
    have hvalid := SessionSetup.valid_of_mem_takings hx
    obtain ⟨spec, members, e, htakes⟩ := SessionSetup.take_eq_ok hvalid
    have hoperation : x.taken.request.operation = x.operation :=
      htakes.request_operation.trans (hbuilt.fits htakes.spec_eq).id_eq
    obtain ⟨reason, hrefused⟩ := hbars.refused hfollows hoverrides
    have hrefused' : setup.config.guard.refusal? x.taken.request.operation
        x.taken.request.risk = some reason := by
      rw [hoperation, hconfig]
      exact hrefused
    rw [← hoperation] at hlive
    exact SessionSetup.keptFromBackend hvalid hlive hrefused'

/-- A document that blocks payments, lets safe writes through, says nothing
about risky ones, and has overrides that allow them all. -/
def paymentText : String :=
  r#"[session]
mode = "live"

[policy]
hard_block = ["erp.post_payment"]

[policy.overrides]
"erp.post_payment" = "allow"
"mail.send" = "allow"

[live]
allow_write_safe = true
"#

/-- An environment that bars an operation from live backends, and all safe
writes. -/
def paymentEnvironment : Environment := fun name =>
  if name = blockVariable then some " tickets.create ,, "
  else if name = writeSafeVariable then some " Off "
  else none

/-- A session that is made from settings. -/
def paymentSetup (settings : Settings) (registry : Registry) : SessionSetup :=
  { config := settings.sessionConfig, registry := registry }

/-- The calls that it takes up of four. -/
def paymentCalls (setup : SessionSetup) : List Taking :=
  setup.takings (Session.start setup .null (.logical 0) .none).state
    [.call ⟨"erp", "post_payment"⟩ .null, .call ⟨"tickets", "create"⟩ .null,
      .call ⟨"mail", "send"⟩ .null, .call ⟨"slack", "post"⟩ .null]

/-- The operation of a call, its class and the mode of its service. -/
def paymentView (setup : SessionSetup) (x : Taking) :
    OperationId × RiskClass × Mode :=
  (x.operation, x.taken.request.risk,
    setup.config.modes.of x.operation.service)

/-- What is to be seen of the four calls. -/
def paymentViews : List (OperationId × RiskClass × Mode) :=
  [(⟨"erp", "post_payment"⟩, .writeRisky, .live),
    (⟨"tickets", "create"⟩, .writeSafe, .live),
    (⟨"mail", "send"⟩, .writeRisky, .live),
    (⟨"slack", "post"⟩, .writeSafe, .live)]

/-- What is to be checked about the document and the calls. -/
def paymentChecks (document : Tree) (setup : SessionSetup) : Bool :=
  (Tree.listed (document.policy? "hard_block")).contains
      ⟨"erp", "post_payment"⟩ &&
    !Tree.isOn (document.live? "allow_write_risky") &&
    (paymentCalls setup).map (paymentView setup) = paymentViews

theorem paymentEnvironment_lists :
    VariableLists paymentEnvironment ⟨"tickets", "create"⟩ :=
  ⟨" tickets.create ,, ", " tickets.create ".toList, rfl, by decide +kernel,
    by decide +kernel⟩

theorem paymentEnvironment_off (document : Tree) :
    FlagOff paymentEnvironment document writeSafeVariable
      "allow_write_safe" := by
  change Text.asciiLower (Text.trim " Off ") ∈ ["0", "false", "no", "off", ""]
  decide +kernel

/-- No call gets to where it may not, though overrides allow two of them and the
document lets safe writes through. -/
theorem payment_blocked_from_document :
    ∃ (document : Tree) (written settings : Settings) (setup : SessionSetup),
      Toml.read? paymentText = some document ∧
      ofToml paymentText = .ok written ∧
      written.override paymentEnvironment = .ok settings ∧
      settings.check (fun _ => false) = .ok () ∧
      setup.config = settings.sessionConfig ∧
      Registry.office = .ok setup.registry ∧
      (paymentCalls setup).map (paymentView setup) = paymentViews ∧
      ∀ x ∈ paymentCalls setup,
        if x.operation = ⟨"erp", "post_payment"⟩ then
          setup.Withholds x.operation x.args x.found x.taken
        else x.KeptFromBackend setup := by
  have hall : (Toml.read? paymentText).any (fun document =>
      (ofToml paymentText).toOption.any fun written =>
        (written.override paymentEnvironment).toOption.any fun settings =>
          (settings.check fun _ => false).toOption.any fun _ =>
            Registry.office.toOption.any fun registry =>
              paymentChecks document (paymentSetup settings registry)) =
      true := by
    decide +kernel
  obtain ⟨document, hdocument, hall⟩ := (Option.any_eq_true _ _).1 hall
  obtain ⟨written, hwritten, hall⟩ := exists_ok_of_any hall
  obtain ⟨settings, hsettings, hall⟩ := exists_ok_of_any hall
  obtain ⟨⟨⟩, hcheck, hall⟩ := exists_ok_of_any hall
  obtain ⟨registry, hregistry, hall⟩ := exists_ok_of_any hall
  rw [paymentChecks, Bool.and_eq_true, Bool.and_eq_true, decide_eq_true_eq,
    List.contains_iff_mem, Bool.not_eq_true'] at hall
  obtain ⟨⟨hblock, hoff⟩, hviews⟩ := hall
  have hconfig : (paymentSetup settings registry).config =
      settings.sessionConfig := rfl
  obtain ⟨hdenied, hkept⟩ := blocks_hold_from_document hdocument hwritten
    hsettings hcheck hconfig hregistry .null (.logical 0) .none
    [.call ⟨"erp", "post_payment"⟩ .null, .call ⟨"tickets", "create"⟩ .null,
      .call ⟨"mail", "send"⟩ .null, .call ⟨"slack", "post"⟩ .null]
  have hrisky : FlagOff paymentEnvironment document writeRiskyVariable
      "allow_write_risky" := hoff
  refine ⟨document, written, settings, paymentSetup settings registry,
    hdocument, hwritten, hsettings, hcheck, hconfig, hregistry, hviews, ?_⟩
  intro x hx
  have hview := List.mem_map_of_mem (f := paymentView (paymentSetup settings
    registry)) hx
  rw [hviews] at hview
  simp only [paymentViews, paymentView, List.mem_cons, List.not_mem_nil,
    or_false, Prod.mk.injEq] at hview
  split_ifs with hpayment
  · exact (hdenied x hx (by rw [hpayment]; exact hblock)).2
  · refine hkept x hx ?_ ?_
    · rcases hview with h | h | h | h <;> exact h.2.2
    · rcases hview with ⟨hop, -⟩ | ⟨hop, -⟩ | ⟨-, hrisk, -⟩ | ⟨-, hrisk, -⟩
      · exact absurd hop hpayment
      · rw [hop]
        exact .listedInVariable paymentEnvironment_lists
      · rw [hrisk]
        exact .writeRisky hrisky
      · rw [hrisk]
        exact .writeSafe (paymentEnvironment_off document)

end Settings

end CallGate
