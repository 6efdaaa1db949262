import ZoneTables.Database.Finding

/-!
# Anomalies

Offsets and amounts of daylight saving that are kept but are seldom meant:
negative saving, saving of another amount than an hour, and offsets that are
no multiple of half an hour.
-/

namespace ZoneTables

def oneHour : Int := 3600

def halfHour : Int := 1800

namespace Rule

def anomaly? (r : Rule) : Option Note :=
  if r.isAnchor then none
  else if r.save < 0 then some (.negativeSave r.save)
  else if r.save ≠ 0 ∧ r.save ≠ oneHour then some (.unusualSave r.save)
  else none

end Rule

namespace Era

def anomalies (era : Era) : List Note :=
  (if era.stdOffset % halfHour ≠ 0 then [.unusualOffset era.stdOffset]
    else []) ++
  match era.saving with
  | .fixed amount =>
    if amount ≠ 0 ∧ amount ≠ oneHour then [.unusualSaving amount] else []
  | _ => []

end Era

def anomalyFindings (zones : Zones) (policies : Policies) : List Finding :=
  (policies.entries.flatMap fun (name, rules) =>
    (rules.filterMap Rule.anomaly?).map (Finding.noted .policy name)) ++
  zones.entries.flatMap fun (name, eras) =>
    (eras.flatMap Era.anomalies).map (Finding.noted .zone name)

end ZoneTables
