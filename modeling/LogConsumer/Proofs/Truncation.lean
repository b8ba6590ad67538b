import LogConsumer.Proofs.WrittenForm

/-! What becomes of a duration that is configured. In JSON only the low 64 bits of its milliseconds
are kept, which from `2 ^ 64` milliseconds on is another duration, without an error; as a session
timeout it is kept or refused. Main statement: `configured_duration`. -/
namespace LogConsumer

namespace Duration

def wholeMillis (d : Duration) : Duration :=
  ⟨d.millis * 1_000_000, Nat.lt_of_le_of_lt (Nat.div_mul_le_self _ _) d.bounded⟩

variable {d : Duration}

theorem nanos_written (d : Duration) :
    d.written.nanos = d.millis % UInt64.size * 1_000_000 := by
  simp only [written, ofMillis, UInt64.toNat_ofNat', UInt64.size, Nat.reducePow]

theorem eq_iff_nanos {d d' : Duration} : d = d' ↔ d.nanos = d'.nanos := by
  cases d
  cases d'
  rw [mk.injEq]

theorem written_eq_wholeMillis_iff : d.written = d.wholeMillis ↔ d.millis < UInt64.size := by
  rw [eq_iff_nanos, nanos_written, wholeMillis, UInt64.size]
  dsimp only
  omega

end Duration

theorem Text.isBlank_of_isDigit {c : Char} (h : Decimal.isDigit c = true) :
    isBlank c = false := by
  have hrange : 48 ≤ c.toNat ∧ c.toNat ≤ 57 := by
    simpa [Decimal.isDigit, Char.le_def, UInt32.le_iff_toNat_le] using h
  simp only [isBlank, inRanges, blankRanges]
  grind

namespace Options

theorem sessionTimeout_withSessionTimeout (o : Options) (d : Duration) :
    (o.withSessionTimeout d).sessionTimeout =
      if d.millis < UInt64.size then .ok d.wholeMillis
      else .error (.configuration sessionSetting Decimal.Fault.tooLarge.message) := by
  have hget : (o.withSessionTimeout d).properties.get? sessionSetting =
      some (Decimal.ofNat d.millis) := SortedMap.get?_insert_self _ _ _
  have hdigits : (Decimal.ofNat d.millis).toList = Nat.toDigits 10 d.millis :=
    String.toList_ofList
  have htrim : Text.trim (Nat.toDigits 10 d.millis) = Nat.toDigits 10 d.millis :=
    Text.trim_eq_self fun _ hc => Text.isBlank_of_isDigit (Decimal.isDigit_of_mem_toDigits hc)
  rw [sessionTimeout, hget]
  dsimp only
  rw [hdigits, htrim, Decimal.read64_toDigits]
  by_cases h : d.millis < UInt64.size
  · rw [if_pos h, if_pos h, ← Duration.written_eq_wholeMillis_iff.2 h]
    rfl
  · rw [if_neg h, if_neg h]

theorem get?_withSessionTimeout (o : Options) (d : Duration) {key : String}
    (h : key ≠ sessionSetting) :
    (o.withSessionTimeout d).properties.get? key = o.properties.get? key :=
  SortedMap.get?_insert_of_ne _ h _

end Options

/-- A configured duration is read back as the low 64 bits of its milliseconds, which is the duration
rounded down exactly if those are all its bits. -/
theorem configured_duration (d : Duration) :
    (∀ (o : Options) (order : List (String × String)), order.Perm o.properties.entries →
      Options.read? (({ o with closeTimeout := d } : Options).toJsonIn order).write =
        some { o with closeTimeout := d.written }) ∧
    (∀ b : Behaviour, b.maxPollRecords < UInt64.size →
      Behaviour.read? ({ b with requestLatency := d } : Behaviour).toJson.write =
        some { b with requestLatency := d.written, commitDelay := b.commitDelay.written } ∧
      Behaviour.read? ({ b with commitDelay := d } : Behaviour).toJson.write =
        some { b with requestLatency := b.requestLatency.written, commitDelay := d.written }) ∧
    (d.written = d.wholeMillis ↔ d.millis < UInt64.size) ∧
    (∀ o : Options, (o.withSessionTimeout d).sessionTimeout =
      if d.millis < UInt64.size then .ok d.wholeMillis
      else .error (.configuration Options.sessionSetting Decimal.Fault.tooLarge.message)) ∧
    ∀ o : Options, (o.withSessionTimeout d).group = o.group ∧
      (o.withSessionTimeout d).closeTimeout = o.closeTimeout ∧
      ∀ key ≠ Options.sessionSetting,
        (o.withSessionTimeout d).properties.get? key = o.properties.get? key :=
  ⟨fun o _ horder => Options.read?_toJsonIn { o with closeTimeout := d } horder,
    fun b hn => ⟨Behaviour.read?_toJson { b with requestLatency := d } hn,
      Behaviour.read?_toJson { b with commitDelay := d } hn⟩,
    Duration.written_eq_wholeMillis_iff, fun o => o.sessionTimeout_withSessionTimeout d,
    fun o => ⟨rfl, rfl, fun _ hkey => o.get?_withSessionTimeout d hkey⟩⟩

/-- A duration of `2 ^ 64` milliseconds is read back as none at all. -/
theorem long_durations_lost : ∃ d : Duration,
    Duration.ofParts? 18446744073709551 616000000 = some d ∧ d.wholeMillis = d ∧ d ≠ .zero ∧
      Options.read? ({ Options.standard with closeTimeout := d } : Options).toJson.write =
        some { Options.standard with closeTimeout := .zero } ∧
      Behaviour.read? ({ Behaviour.standard with
          requestLatency := d, commitDelay := d } : Behaviour).toJson.write =
        some { Behaviour.standard with requestLatency := .zero, commitDelay := .zero } := by
  refine ⟨⟨18446744073709551616 * 1_000_000, by decide⟩, by decide, by decide, by decide, ?_, ?_⟩
  · rw [Options.toJson_eq]
    exact Options.read?_toJsonIn _ (.refl _)
  · exact Behaviour.read?_toJson _ (by decide)

end LogConsumer
