import ZoneTables.Proofs.Checked.Word
import ZoneTables.Source.Reader

/-!
# Reading in words of 32 bits

An amount of time has at most three digits of hours, so that its seconds are far
from the ends of a word.  This bounds what reading computes for every text.
-/

namespace ZoneTables.Checked

/-! ## Fields -/

def total (hours minutes seconds : Nat) : Checked Int := do
  let h ← mul hours 3600
  let m ← mul minutes 60
  let sum ← add h m
  add sum seconds

def readHours? (cs : List Char) : Checked (Option Int) :=
  let digits := cs.takeWhile Char.isDigit
  if digits.isEmpty || decide (3 < digits.length) then return none
  else
    let hours := Text.digitsValue digits
    match cs.dropWhile Char.isDigit with
    | [] => return some (← total hours 0 0)
    | rest =>
      match Clock.readSixtieth? rest with
      | none => return none
      | some (minutes, []) => return some (← total hours minutes 0)
      | some (minutes, rest) =>
        match Clock.readSixtieth? rest with
        | some (seconds, []) => return some (← total hours minutes seconds)
        | _ => return none

def readAmount? : List Char → Checked (Option Int)
  | ['-'] => return some 0
  | '-' :: cs => do
    match ← readHours? cs with
    | some n => return some (← neg n)
    | none => return none
  | cs => readHours? cs

def amount (token : String) : Checked (Except FieldError Int) := do
  match ← readAmount? token.toList with
  | some n => return .ok n
  | none => return .error (.invalidTime token)

def readMonth? (cs : List Char) : Checked (Option Nat) :=
  if cs.length < 3 then return none
  else
    match Month.names.findIdx? fun name =>
        (cs.map Char.toLower).isPrefixOf name.toList with
    | some i => return some (← unsigned (i + 1))
    | none => return none

def month (token : String) : Checked (Except FieldError Nat) := do
  match ← readMonth? token.toList with
  | some m => return .ok m
  | none => return .error (.invalidMonth token)

def time (token : String) : Checked (Except FieldError (Int × TimeFrame)) := do
  let (body, letter) := Field.splitTime token.toList
  if Field.isAmountText body then
    let seconds ← amount (String.ofList body)
    return do
      let seconds ← seconds
      match letter with
      | none => .ok (seconds, .wall)
      | some c =>
        match TimeFrame.ofLetter? c with
        | some frame => .ok (seconds, frame)
        | none => .error (.invalidSuffix token)
  else return .error (.invalidTime token)

def save (token : String) : Checked (Except FieldError Int) :=
  match token.toList.getLast? with
  | some 's' | some 'd' => amount (String.ofList token.toList.dropLast)
  | _ => amount token

def optional {α : Type} (read : String → Checked (Except FieldError α))
    (missing : α) : Option String → Checked (Except FieldError α)
  | some token => read token
  | none => return .ok missing

theorem total_eq {hours minutes seconds : Nat} (hhours : hours < 1000)
    (hminutes : minutes < 60) (hseconds : seconds < 60) :
    total hours minutes seconds =
      .ok (hours * 3600 + minutes * 60 + seconds : Nat) := by
  have h : mul hours 3600 = .ok (hours * 3600 : Int) := signed_eq (by omega)
  have m : mul minutes 60 = .ok (minutes * 60 : Int) := signed_eq (by omega)
  have sum : add (hours * 3600) (minutes * 60) = .ok (hours * 3600 + minutes * 60) :=
    signed_eq (by omega)
  have all : add (hours * 3600 + minutes * 60) seconds =
      .ok (hours * 3600 + minutes * 60 + seconds) := signed_eq (by omega)
  simp only [total, h, m, sum, all, ok_bind]
  push_cast
  rfl

theorem readHours?_eq (cs : List Char) :
    readHours? cs = .ok ((Clock.readHours? cs).map fun n : Nat => (n : Int)) := by
  have hsixtieth : ∀ {cs rest : List Char} {n : Nat},
      Clock.readSixtieth? cs = some (n, rest) → n < 60 := by
    intro cs rest n h
    obtain ⟨_, hwrites, _⟩ := Clock.readSixtieth?_eq_some_iff.1 h
    exact hwrites.lt
  unfold readHours? Clock.readHours?
  dsimp only
  split
  · rfl
  · rename_i hlength
    have hhours : Text.digitsValue (cs.takeWhile Char.isDigit) < 1000 := by
      rw [Bool.or_eq_true, decide_eq_true_eq, not_or] at hlength
      have hlt := Text.digitsValue_lt (List.all_takeWhile (p := Char.isDigit) (l := cs))
      have hpow := Nat.pow_le_pow_right (by decide : 0 < 10) (Nat.not_lt.1 hlength.2)
      omega
    cases cs.dropWhile Char.isDigit with
    | nil => simp [total_eq hhours]
    | cons c rest =>
      dsimp only
      cases hminutes : Clock.readSixtieth? (c :: rest) with
      | none => rfl
      | some p =>
        obtain ⟨minutes, _ | ⟨d, rest⟩⟩ := p
        · simp [total_eq hhours (hsixtieth hminutes)]
        · dsimp only
          cases hseconds : Clock.readSixtieth? (d :: rest) with
          | none => rfl
          | some p =>
            obtain ⟨seconds, _ | _⟩ := p
            · simp [total_eq hhours (hsixtieth hminutes) (hsixtieth hseconds)]
            · rfl

theorem readAmount?_eq (cs : List Char) : readAmount? cs = .ok (Clock.read? cs) := by
  fun_cases Clock.read? cs with
  | case1 => rfl
  | case2 cs hne =>
    rw [readAmount?, readHours?_eq, ok_bind]
    · cases hread : Clock.readHours? cs with
      | none => rfl
      | some n =>
        have hle := (Clock.writes_of_readHours? hread).le
        have hneg : neg n = .ok (-n : Int) := signed_of_natAbs_le (by omega)
        simp [hneg]
    · exact hne
  | case3 cs hdash hsign =>
    rw [readAmount?, readHours?_eq]
    · exact hdash
    · exact hsign

theorem amount_eq (token : String) : amount token = .ok (Field.amount token) := by
  rw [amount, readAmount?_eq, ok_bind, Field.amount]
  cases Clock.read? token.toList <;> rfl

theorem readMonth?_eq (cs : List Char) : readMonth? cs = .ok (Month.read? cs) := by
  unfold readMonth? Month.read?
  split
  · rfl
  · cases hindex : Month.names.findIdx? fun name =>
        (cs.map Char.toLower).isPrefixOf name.toList with
    | none => rfl
    | some i =>
      have hlt : i < Month.names.length := (List.findIdx?_eq_some_iff_getElem.1 hindex).1
      have hnames : Month.names.length = 12 := rfl
      have hnext : unsigned (i + 1) = .ok (i + 1) :=
        unsigned_eq (n := i + 1) (by omega)
      simp [hnext]

theorem month_eq (token : String) : month token = .ok (Field.month token) := by
  rw [month, readMonth?_eq, ok_bind, Field.month]
  cases Month.read? token.toList <;> rfl

theorem time_eq (token : String) : time token = .ok (Field.time token) := by
  unfold time Field.time
  dsimp only
  split
  · rw [amount_eq, ok_bind]
    rfl
  · rfl

theorem save_eq (token : String) : save token = .ok (Field.save token) := by
  unfold save Field.save
  split <;> simp [*, amount_eq]

theorem optional_eq {α : Type} {read : String → Checked (Except FieldError α)}
    {plain : String → Except FieldError α} (h : ∀ token, read token = .ok (plain token))
    (missing : α) (token : Option String) :
    optional read missing token = .ok (Field.optional plain missing token) := by
  cases token with
  | none => rfl
  | some token => exact h token

/-! ## Records -/

def readRule (origin : SourceLine) :
    List String → Checked (Except LineError SourceRule)
  | [first, last, _, inMonth, day, at_, amount, letter] => do
    let at_ ← time at_
    let inMonth ← month inMonth
    let amount ← save amount
    return onLine do
      let fromYear ← Field.year first
      let toYear ← Field.lastYear last fromYear
      let (seconds, frame) ← at_
      let inMonth ← inMonth
      let on ← Field.daySpec day
      let amount ← amount
      .ok ⟨fromYear, toYear, inMonth, on, seconds, frame, amount, letter, origin⟩
  | fields => return .error (.fieldCount .rule (fields.length + 2))

def readUntil (year : String) (rest : List String) :
    Checked (Except FieldError SourceUntil) := do
  let inMonth ← optional month 1 rest[0]?
  let at_ ← optional time (0, .wall) rest[2]?
  return do
    let y ← Field.year year
    let inMonth ← inMonth
    let day ← Field.optional Field.daySpec (.exact 1) rest[1]?
    let (seconds, frame) ← at_
    .ok ⟨y, inMonth, day, seconds, frame⟩

def readEnd : List String → Checked (Except FieldError (Option SourceUntil))
  | [] => return .ok none
  | year :: rest => do
    let ends ← readUntil year rest
    return do
      let ends ← ends
      .ok (some ends)

def readEra (kind : RecordKind) (before : Nat) (origin : SourceLine)
    (fields : List String) : Checked (Except LineError SourceEra) :=
  match fields with
  | offset :: rules :: format :: rest =>
    if 4 < rest.length then
      return .error (.fieldCount kind (fields.length + before))
    else do
      let offset ← amount offset
      let ends ← readEnd rest
      return onLine do
        let stdOffset ← offset
        let ends ← ends
        .ok ⟨stdOffset, rules, format, ends, origin⟩
  | _ => return .error (.fieldCount kind (fields.length + before))

def readRecord (taken : String → Bool) (origin : SourceLine)
    (tokens : List String) : Checked (Except LineError Record) :=
  match tokens with
  | [] => return .error (.unknownKeyword "")
  | keyword :: fields =>
    let word := String.ofList (keyword.toList.map Char.toLower)
    if word = "rule" ∨ word = "r" then
      match fields with
      | policy :: rest =>
        if rest.length = 8 then
          return (← readRule origin rest).map (.rule policy)
        else return .error (.fieldCount .rule tokens.length)
      | [] => return .error (.fieldCount .rule tokens.length)
    else if word = "zone" ∨ word = "z" then
      match fields with
      | name :: rest =>
        if taken name then return .error (.duplicateZone name)
        else return (← readEra .zone 2 origin rest).map (.zone name)
      | [] => return .error (.fieldCount .zone tokens.length)
    else if word = "link" ∨ word = "l" then
      match fields with
      | [target, name] => return .ok (.link target name)
      | _ => return .error (.fieldCount .link tokens.length)
    else if word = "leap" ∨ word = "expires" then return .ok (.ignored keyword)
    else return .error (.unknownKeyword keyword)

theorem readRule_eq (origin : SourceLine) (fields : List String) :
    readRule origin fields = .ok (SourceRule.read origin fields) := by
  fun_cases SourceRule.read origin fields with
  | case1 =>
    rw [readRule, time_eq, ok_bind, month_eq, ok_bind, save_eq, ok_bind]
    rfl
  | case2 _ hfields =>
    rw [readRule]
    · rfl
    · exact hfields

theorem readEnd_eq (fields : List String) :
    readEnd fields = .ok (SourceUntil.readEnd fields) := by
  cases fields with
  | nil => rfl
  | cons year rest =>
    rw [readEnd, readUntil, optional_eq month_eq, ok_bind, optional_eq time_eq, ok_bind]
    rfl

theorem readEra_eq (kind : RecordKind) (before : Nat) (origin : SourceLine)
    (fields : List String) :
    readEra kind before origin fields = .ok (SourceEra.read kind before origin fields) := by
  match fields with
  | offset :: rules :: format :: rest =>
    rw [readEra, SourceEra.read]
    split
    · rfl
    · rw [amount_eq, ok_bind, readEnd_eq, ok_bind]
      rfl
  | [] | [_] | [_, _] => rfl

theorem readRecord_eq (taken : String → Bool) (origin : SourceLine)
    (tokens : List String) :
    readRecord taken origin tokens = .ok (Record.read taken origin tokens) := by
  cases tokens with
  | nil => rfl
  | cons keyword fields =>
    simp only [readRecord, Record.read, readRule_eq, readEra_eq, ok_bind, pure_eq]
    -- the forms of a record are told apart by up to two words behind the keyword
    rcases fields with _ | ⟨first, _ | ⟨second, _ | ⟨third, rest⟩⟩⟩
    all_goals
      dsimp only
      repeat' split
      all_goals rfl

/-! ## Texts -/

def readContent (origin : SourceLine) (s : ReaderState)
    (content : List Char) : Checked LineOutcome :=
  let tokens := (Text.words content).map String.ofList
  if content.head?.any Text.isBlank then
    match s.openZone with
    | none => return ⟨s, [], some .orphanContinuation⟩
    | some zone => do
      match ← readEra .continuation 0 origin tokens with
      | .error fault => return ⟨s, [], some fault⟩
      | .ok era =>
        return ⟨⟨s.source.addEra zone era, ReaderState.openAfter zone era⟩, [], none⟩
  else
    match s.openZone with
    | some zone => return ⟨s, [], some (.unterminatedZone zone)⟩
    | none => do
      match ← readRecord s.source.zones.contains origin tokens with
      | .error fault => return ⟨s, [], some fault⟩
      | .ok record => return ReaderState.addRecord origin s.source record

def readLine (file : String) (number : Nat) (line : List Char)
    (s : ReaderState) : Checked LineOutcome :=
  let s := { s with source := s.source.countLine }
  let content := lineContent line
  if content.isEmpty then return ⟨s, [], none⟩
  else
    readContent ⟨file, number, String.ofList (Text.trimEnd line)⟩ s content

def readLines (file : String) (number : Nat) (s : ReaderState) (log : Log) :
    List (List Char) → Checked Reading
  | [] =>
    match s.openZone with
    | some zone =>
      return ⟨s.source, log, some ⟨file, number - 1, .unterminatedZone zone⟩⟩
    | none => return ⟨s.source.countFile, log, none⟩
  | line :: rest => do
    let outcome ← readLine file number line s
    let log := log ++ outcome.log
    match outcome.fault with
    | some fault =>
      return ⟨outcome.state.source, log, some ⟨file, number, fault⟩⟩
    | none => readLines file (number + 1) outcome.state log rest

def readTexts (s : Source) (log : Log) : List SourceText → Checked Reading
  | [] => return ⟨s, log, none⟩
  | t :: rest => do
    let reading ← readLines t.name 1 ⟨s, none⟩ [] (Text.lines t.text.toList)
    match reading.fault with
    | some fault => return ⟨reading.source, log ++ reading.log, some fault⟩
    | none => readTexts reading.source (log ++ reading.log) rest

theorem readContent_eq (origin : SourceLine) (s : ReaderState) (content : List Char) :
    readContent origin s content = .ok (s.readContent origin content) := by
  unfold readContent ReaderState.readContent
  simp only [readEra_eq, readRecord_eq, ok_bind]
  split
  · cases s.openZone with
    | none => rfl
    | some zone =>
      dsimp only
      cases SourceEra.read .continuation 0 origin ((Text.words content).map String.ofList) <;>
        rfl
  · cases s.openZone with
    | some zone => rfl
    | none =>
      dsimp only
      cases Record.read s.source.zones.contains origin
        ((Text.words content).map String.ofList) <;> rfl

theorem readLine_eq (file : String) (number : Nat) (line : List Char) (s : ReaderState) :
    readLine file number line s = .ok (s.readLine file number line) := by
  unfold readLine ReaderState.readLine
  dsimp only
  split
  · rfl
  · exact readContent_eq _ _ _

theorem readLines_eq (file : String) (lines : List (List Char)) :
    ∀ (number : Nat) (s : ReaderState) (log : Log),
      readLines file number s log lines = .ok (Reading.lines file number s log lines) := by
  induction lines with
  | nil =>
    intro number s log
    unfold readLines Reading.lines
    cases s.openZone <;> rfl
  | cons line rest ih =>
    intro number s log
    rw [readLines, readLine_eq, ok_bind, Reading.lines]
    cases (s.readLine file number line).fault with
    | none => exact ih _ _ _
    | some fault => rfl

theorem readTexts_eq (s : Source) (log : Log) (texts : List SourceText) :
    readTexts s log texts = .ok (s.readTexts log texts) := by
  induction texts generalizing s log with
  | nil => rfl
  | cons t rest ih =>
    rw [readTexts, readLines_eq, ok_bind, Source.readTexts, Source.readText]
    cases (Reading.lines t.name 1 ⟨s, none⟩ [] (Text.lines t.text.toList)).fault with
    | none => exact ih _ _
    | some fault => rfl

end ZoneTables.Checked
