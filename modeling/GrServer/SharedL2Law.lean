import GrServer.SharedL2
import GrServer.SiliconFingerprint

/-!
# When the shared store gives back what was put in

A document comes back when nothing of the handshake is left to read and the one
read of the reply brings as much of it as reads back as the document.  A set is
reported as done for every reply in which the letters OK are read.
-/

namespace GrServer

open Json Text Resp

namespace SharedL2

/-! ## The law -/

section Law

variable {env : L2Env} {url : RedisUrl} {name : String} {s g : Link} {S : Server}

/-- A value whose text is a string of the language. -/
structure Document (env : L2Env) where
  value : Json
  fits : (asBytes (jsonText env value)).length < 2 ^ 63

def Document.body (d : Document env) : List UInt8 := asBytes (jsonText env d.value)

def setArgs (name : String) (d : Document env) : List (List UInt8) :=
  ["SET", sgKey name, jsonText env d.value].map asBytes

def getArgs (name : String) : List (List UInt8) := ["GET", sgKey name].map asBytes

def okReply : Reply := .status [79, 75]

/-- What the codec promises of a document: over the link `s` to the server `S`, where it is
put, and over the link `g`, where it is asked for. -/
structure CodecLaw (env : L2Env) (url : RedisUrl) (name : String) (d : Document env) (s : Link)
    (S : Server) (g : Link) : Prop where
  stored : l2SetJson env (some url) s S name d.value = .ok () → S (setArgs name d) = okReply
  roundTrip : ∀ s' S' G, l2SetJson env (some url) s' S' name d.value = .ok () →
    S' (setArgs name d) = okReply → G (getArgs name) = .bulk d.body →
      l2GetJson env (some url) g G name = some d.value
  absent : ∀ G, (G (getArgs name) = .nil ∨ ∃ line, G (getArgs name) = .error line) →
    l2GetJson env (some url) g G name = none
  noOther : ∀ G w, G (getArgs name) = .bulk d.body →
    l2GetJson env (some url) g G name = some w → w = d.value

/-- The letters OK are not read in another reply than the one that means it. -/
def HeardRight (env : L2Env) (url : RedisUrl) (s : Link) (r : Reply) : Prop :=
  r = okReply ∨ ∀ resp, Brings env url s r resp → containsStr resp "OK" = false

/-- Nothing of the handshake is left, and the read brings the announced length and as much of
the body as reads back as the document. -/
structure Whole (env : L2Env) (url : RedisUrl) (g : Link) (d : Document env) : Prop where
  handshake : redisConnect env url g = .ok []
  sent : g.command.writeError = none
  arrived : ∃ k, g.command.read = .arrived k ∧ (announced d.body).length ≤ min k 65536 ∧
    readBack env (d.body.take (min k 65536 - (announced d.body).length)) = some d.value

theorem newline_not_mem_body (d : Document env) : 10 ∉ asBytes (jsonText env d.value) := by
  intro hmem
  have hchar : '\n' ∈ (jsonText env d.value).toList := mem_of_mem_asBytes (by decide) hmem
  unfold jsonText at hchar
  rw [String.toList_ofList] at hchar
  exact absurd (printable_compact d.value _ hchar) (by decide)

theorem get_bulk {d : Document env} {G : Server} {k : ℕ} (hG : G (getArgs name) = .bulk d.body)
    (hconnect : redisConnect env url g = .ok []) (hsent : g.command.writeError = none)
    (hread : g.command.read = .arrived k) (w : Json) :
    l2GetJson env (some url) g G name = some w ↔
      (announced d.body).length ≤ min k 65536 ∧
        readBack env (d.body.take (min k 65536 - (announced d.body).length)) = some w := by
  rw [l2GetJson_eq_some]
  show (∃ resp, Brings env url g (G (getArgs name)) resp ∧ _) ↔ _
  rw [hG]
  unfold Document.body
  rw [← parse_cut_bulk d.fits (newline_not_mem_body d) w]
  constructor
  · rintro ⟨resp, ⟨left, k', hleft, -, hk', hbytes, hne⟩, hparse⟩
    rw [hconnect] at hleft
    rw [hread] at hk'
    cases hleft
    cases hk'
    exact ⟨resp, hbytes, hne, hparse⟩
  · rintro ⟨resp, hbytes, hne, hparse⟩
    exact ⟨resp, ⟨[], k, hconnect, hsent, hread, hbytes, hne⟩, hparse⟩

theorem parseBulk_nil_reply {resp : String} {n : ℕ}
    (h : asBytes resp = Reply.nil.encode.take n) : parseBulk resp = none := by
  have hcut : ∀ {t : String}, asBytes t = Reply.nil.encode.take n → parseBulk t = none →
      parseBulk resp = none := by
    intro t ht hnone
    rwa [asBytes_inj.mp (h.trans ht.symm)]
  rcases n with _ | _ | _ | _ | _ | n
  · exact @hcut "" (by decide) (by decide)
  · exact @hcut "$" (by decide) (by decide)
  · exact @hcut "$-" (by decide) (by decide)
  · exact @hcut "$-1" (by decide) (by decide)
  · exact @hcut "$-1\r" (by decide) (by decide)
  · refine @hcut "$-1\r\n" ?_ (by decide)
    rw [asBytes_nil_reply, List.take_of_length_le]
    show 5 ≤ n + 1 + 1 + 1 + 1 + 1
    omega

theorem get_absent {G : Server} (hconnect : redisConnect env url g = .ok [])
    (hG : G (getArgs name) = .nil ∨ ∃ line, G (getArgs name) = .error line) :
    l2GetJson env (some url) g G name = none := by
  by_contra hsome
  rcases Option.ne_none_iff_exists'.mp hsome with ⟨w, hw⟩
  rcases l2GetJson_eq_some.mp hw with ⟨resp, ⟨left, k, hleft, -, -, hbytes, hne⟩, hparse⟩
  rw [hconnect] at hleft
  cases hleft
  have hnone : parseBulk resp = none := by
    change asBytes resp = ([] ++ (G (getArgs name)).encode).take (min k 65536) at hbytes
    rw [List.nil_append] at hbytes
    generalize min k 65536 = n at hbytes
    rcases hG with hG | ⟨line, hG⟩
    · rw [hG] at hbytes
      exact parseBulk_nil_reply hbytes
    · rw [hG] at hbytes
      cases n with
      | zero => exact absurd (asBytes_inj.mp hbytes) hne
      | succ n =>
          rcases toList_eq_cons (by decide) hbytes with ⟨q, hq, -⟩
          rcases splitCrlf_eq_cons resp.toList with ⟨lines, hlines⟩
          rw [parseBulk_of_split hlines, hq, firstLine_cons (by decide)]
          exact if_pos (.inr rfl)
  rw [hnone] at hparse
  cases hparse

def plainDelivery : Delivery := ⟨none, .arrived 65536⟩

def plainLink : Link := ⟨none, fun _ => okReply, plainDelivery, plainDelivery, plainDelivery⟩

theorem greet_plain (args : List String) :
    greet env plainDelivery (fun _ => okReply) args [] = .ok [] := by
  have hread : redisRead env plainDelivery ([] ++ okReply.encode) = .ok ("+OK\r\n", []) :=
    redisRead_eq_ok.mpr ⟨65536, rfl, by decide, by decide, rfl⟩
  have hwritten : redisWrite plainDelivery (fun _ => okReply) args [] =
      .ok ([] ++ okReply.encode) :=
    redisWrite_eq_ok.mpr ⟨rfl, rfl⟩
  unfold greet
  rw [hwritten]
  dsimp only [bind, Except.bind]
  rw [hread]
  rfl

theorem redisConnect_plain (env : L2Env) (url : RedisUrl) :
    redisConnect env url plainLink = .ok [] := by
  have hauth : authenticate env url plainLink = .ok [] := by
    unfold authenticate
    cases url.password with
    | none => rfl
    | some pw => exact greet_plain _
  have hselect : selectDb env url plainLink [] = .ok [] := by
    unfold selectDb
    split_ifs
    · exact greet_plain _
    · rfl
  show authenticate env url plainLink >>= selectDb env url plainLink = .ok []
  rw [hauth]
  exact hselect

theorem set_plain (d : Document env) :
    l2SetJson env (some url) plainLink (fun _ => okReply) name d.value = .ok () := by
  refine l2SetJson_eq_ok.mpr ⟨"+OK\r\n", ?_, by decide⟩
  exact ⟨[], 65536, redisConnect_plain env url, rfl, rfl, by decide, by decide⟩

/-- The codec keeps its promise for a document exactly when its reply comes whole, as far as
reading it back needs, and the reply to the set is heard right. -/
theorem codecLaw_iff (env : L2Env) (url : RedisUrl) (name : String) (d : Document env) (s : Link)
    (S : Server) (g : Link) :
    CodecLaw env url name d s S g ↔
      HeardRight env url s (S (setArgs name d)) ∧ Whole env url g d := by
  constructor
  · intro h
    constructor
    · by_cases hok : S (setArgs name d) = okReply
      · exact .inl hok
      · refine .inr fun resp hbrings => ?_
        rw [Bool.eq_false_iff]
        exact fun hcontains => hok (h.stored (l2SetJson_eq_ok.mpr ⟨resp, hbrings, hcontains⟩))
    · have hget := h.roundTrip plainLink (fun _ => okReply) (fun _ => .bulk d.body)
        (set_plain d) rfl rfl
      rcases l2GetJson_eq_some.mp hget with
        ⟨resp, ⟨left, k, hconnect, hsent, hread, hbytes, hne⟩, hparse⟩
      have hleft : left = [] := by
        by_contra hleft
        rcases nil_of_bulk (tail_redisConnect hconnect) hleft hbytes hne hparse with
          ⟨resp', hbytes', hne', hparse'⟩
        have hnil : l2GetJson env (some url) g (fun _ => Reply.nil) name = some d.value :=
          l2GetJson_eq_some.mpr
            ⟨resp', ⟨left, k, hconnect, hsent, hread, hbytes', hne'⟩, hparse'⟩
        rw [h.absent (fun _ => Reply.nil) (.inl rfl)] at hnil
        cases hnil
      rw [hleft] at hconnect
      exact ⟨hconnect, hsent, k, hread, (get_bulk rfl hconnect hsent hread _).mp hget⟩
  · rintro ⟨hheard, hconnect, hsent, k, hread, harrived⟩
    have hback : ∀ G, G (getArgs name) = .bulk d.body →
        l2GetJson env (some url) g G name = some d.value :=
      fun G hG => (get_bulk hG hconnect hsent hread _).mpr harrived
    constructor
    · intro hset
      rcases l2SetJson_eq_ok.mp hset with ⟨resp, hbrings, hcontains⟩
      rcases hheard with hok | hno
      · exact hok
      · rw [hno resp hbrings] at hcontains
        cases hcontains
    · exact fun _ _ G _ _ hG => hback G hG
    · exact fun G hG => get_absent hconnect hG
    · intro G w hG hw
      rw [hback G hG] at hw
      exact (Option.some.inj hw).symm

end Law

section Cut

def withoutReturns (t : Text) : Text := (t.reverse.dropWhile (· = '\r')).reverse

def readDigits (s : String) : Option Json :=
  let digits := withoutReturns s.toList
  if digits ≠ [] ∧ digits.all Char.isDigit = true then
    some (ofInt (Nat.ofDigitChars 10 digits 0))
  else none

theorem dollar_mem_withoutReturns (t : Text) : '$' ∈ withoutReturns ('$' :: t) := by
  unfold withoutReturns
  rw [List.mem_reverse]
  have hall : '$' ∈ ('$' :: t).reverse := List.mem_reverse.mpr List.mem_cons_self
  rw [← List.takeWhile_append_dropWhile (p := (· = '\r')) (l := ('$' :: t).reverse)] at hall
  rcases List.mem_append.mp hall with htaken | hleft
  · exact absurd (List.mem_takeWhile_imp htaken) (by decide)
  · exact hleft

def digitsEnv : L2Env where
  floats := SessionTicket.fractionText
  fromStr := readDigits
  utf8Error _ := "invalid utf-8 sequence"
  notEmpty := by decide
  notDollar t := by
    unfold readDigits
    refine if_neg fun h => ?_
    have hlist : ("$" ++ t).toList = '$' :: t.toList := by rw [String.toList_append]; rfl
    rw [hlist] at h
    exact absurd (List.all_eq_true.mp h.2 _ (dollar_mem_withoutReturns _)) (by decide)
  trailing t := by
    unfold readDigits withoutReturns
    simp

def localUrl : RedisUrl := ⟨none, 0⟩

def cutLink : Link := { plainLink with command := ⟨none, .arrived 6⟩ }

/-- The number 12345 comes back as 12, and an error is taken for a stored document. -/
theorem number_cut_in_two :
    (l2SetJson digitsEnv (some localUrl) plainLink (fun _ => okReply) "n" (ofInt 12345) = .ok () ∧
      l2GetJson digitsEnv (some localUrl) cutLink
        (fun _ => .bulk (asBytes (jsonText digitsEnv (ofInt 12345)))) "n" = some (ofInt 12)) ∧
    l2SetJson digitsEnv (some localUrl) plainLink
      (fun _ => .error (asBytes "ERR invalid TOKEN")) "n" (ofInt 12345) = .ok () := by
  have hbody : asBytes (jsonText digitsEnv (ofInt 12345)) = [49, 50, 51, 52, 53] := by
    decide
  have hfits : (asBytes (jsonText digitsEnv (ofInt 12345))).length < 2 ^ 63 := by
    rw [hbody]
    decide
  refine ⟨⟨set_plain ⟨ofInt 12345, hfits⟩, ?_⟩, ?_⟩
  · refine l2GetJson_eq_some.mpr ⟨"$5\r\n12", ?_, by decide⟩
    refine ⟨[], 6, rfl, rfl, rfl, ?_, by decide⟩
    rw [hbody]
    decide
  · refine l2SetJson_eq_ok.mpr ⟨"-ERR invalid TOKEN\r\n", ?_, by decide⟩
    exact ⟨[], 65536, rfl, rfl, rfl, by decide, by decide⟩

end Cut

end SharedL2

end GrServer
