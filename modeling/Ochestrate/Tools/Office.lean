import Ochestrate.Tools.Accounting

/-!
# Office tools

`app/tools/office.py`. The two tools answer from their parameters alone
(`sendEmailTool_stateless`, `createCalendarEventTool_stateless`): a call neither
reads nor changes the world outside the hub.
-/

namespace Ochestrate

variable {ω : Type}

/-- `CreateCalendarEventTool`. -/
def createCalendarEventTool : Tool ω where
  name := "create_calendar_event"
  description := "Create a calendar event via enterprise calendar gateway."
  requiredRoles := ["employee", "manager", "admin"]
  idempotent := true
  run params := return Dict.empty.update [
    ("status", .str "created"), ("title", (params.get? (.str "title")).getD (.str "Untitled")),
    ("when", (params.get? (.str "when")).getD (.str "unspecified"))]

/-- A tool that neither reads nor changes the world. -/
def Tool.Stateless (tool : Tool ω) : Prop :=
  ∀ params, ∃ result : Except Exc (Dict String Json), tool.run params = MonadExcept.ofExcept result

theorem sendEmailTool_stateless : (sendEmailTool : Tool ω).Stateless :=
  fun _ => ⟨.ok _, rfl⟩

theorem createCalendarEventTool_stateless : (createCalendarEventTool : Tool ω).Stateless :=
  fun _ => ⟨.ok _, rfl⟩

end Ochestrate
