import Shortcode.Expansion.Basic

/-! # Countdowns

A countdown shows the time that is left until a date, in four units, and a message afterwards. -/

namespace Shortcode.Expansion

def countdownUnit (unit label : Text) : Markup.Template :=
  [r#"<div class="countdown-item"><span class="countdown-number" data-type=""#, .literal unit,
    r#"">0</span><span class="countdown-label">"#, .literal label, "</span></div>"]

/-- A countdown to a date, or a warning if no date is given. -/
def countdown (o : Occurrence) : Expansion :=
  let a := Attributes.parse o.raw
  let date := a.getD "date" ""
  let message := a.getD "message" "Countdown finished!"
  if date.isEmpty then .warning .noDate
  else
    .widget "countdown"
      (List.flatten [
        [r#"<div id=""#, .id, r#"" class="content-shortcodes-countdown"#,
          .className (a.getD "class" ""), r#"" data-target=""#,
          .value (date ++ ' ' :: a.getD "time" "00:00:00"),
          r#"" data-format=""#, .value (a.getD "format" "days,hours,minutes,seconds"),
          r#"" data-message=""#, .value message, r#""><div class="countdown-display">"#],
        countdownUnit "days" "Days",
        countdownUnit "hours" "Hours",
        countdownUnit "minutes" "Minutes",
        countdownUnit "seconds" "Seconds",
        [r#"</div><div class="countdown-message" style="display: none;">"#, .value message,
          "</div></div>"]])
      []

end Shortcode.Expansion
