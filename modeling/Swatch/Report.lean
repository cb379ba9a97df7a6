import Swatch.Fault.Message
import Swatch.Literal
/-!
What a conversion reports.

* `Report`: an unsupported form of output, a literal that is no colour, or one that failed.
* `Reported`: a value together with the reports made on the way to it, in order.
-/

namespace Swatch

/-- A report of a conversion. -/
inductive Report where
  | unsupported (output : Text)
  | unrecognized (literal : Literal)
  | failed (literal : Literal) (fault : Fault)
  deriving DecidableEq

/-- How much a report matters. -/
inductive Report.Level where
  | debug
  | warning
  deriving DecidableEq

/-- A failure is a warning, and the rest is for debugging. -/
def Report.level : Report → Report.Level
  | .failed .. => .warning
  | _ => .debug

/-- The message of a report, if what is said about channels that are too large is given. -/
def Report.messageWith (oversized : List Channel → Text) : Report → Text
  | .unsupported output =>
    "Unsupported output format ".toList ++ Text.quoted output ++ ", colors left as-is".toList
  | .unrecognized literal =>
    "Unrecognized ".toList ++ literal.form.name ++ " color: ".toList ++ Text.quoted literal.text
  | .failed literal fault =>
    "Failed to convert color ".toList ++ Text.quoted literal.text ++ ": ".toList
      ++ fault.messageWith oversized

/-- The message of a report, with nothing for channels that are too large. -/
def Report.message : Report → Text := Report.messageWith fun _ => []

/-- A value with the reports made on the way to it. -/
structure Reported (α : Type) where
  value : α
  reports : List Report

namespace Reported

instance : Monad Reported where
  pure a := ⟨a, []⟩
  bind x f :=
    let y := f x.value
    ⟨y.value, x.reports ++ y.reports⟩

@[simp] theorem value_pure {α : Type} (a : α) : (pure a : Reported α).value = a := rfl

@[simp] theorem reports_pure {α : Type} (a : α) : (pure a : Reported α).reports = [] := rfl

@[simp] theorem value_bind {α β : Type} (x : Reported α) (f : α → Reported β) :
    (x >>= f).value = (f x.value).value := rfl

@[simp] theorem reports_bind {α β : Type} (x : Reported α) (f : α → Reported β) :
    (x >>= f).reports = x.reports ++ (f x.value).reports := rfl

instance : LawfulMonad Reported :=
  LawfulMonad.mk' Reported
    (fun x => by simp [Functor.map])
    (fun _ _ => by simp [bind, pure])
    (fun _ _ _ => by simp [bind, List.append_assoc])

@[simp] theorem reports_map {α β : Type} (f : α → β) (x : Reported α) :
    (f <$> x).reports = x.reports := List.append_nil x.reports

/-- Makes a report. -/
def report (r : Report) : Reported Unit := ⟨(), [r]⟩

end Reported

end Swatch
