import MarketSystem.Backtest.Simulador
import Mathlib.Tactic.Linarith
import Mathlib.Tactic.LinearCombination
import Mathlib.Tactic.Ring

/-!
# What the equity curve means

A point of the curve is the initial capital, the net results booked so far and the gross result
of the open position at the close. Every bar of the loop either keeps this or marks a short
position with the formula of a long one.
-/
namespace MarketSystem.Simulador

open Library FallibleLoop

/-- Every price of the bar is a finite positive number. -/
structure Barra.Valida (bar : Barra) : Prop where
  open_ : (precioValido bar.open_).isSome = true
  high : (precioValido bar.high).isSome = true
  low : (precioValido bar.low).isSome = true
  close : (precioValido bar.close).isSome = true

/-! ### Books

A loop over bars with a curve, booked results and a position. -/

/-- What a simulation shows of the state of its loop. -/
structure Libro (σ : Type) where
  inicial : ℚ
  netos : σ → ℚ
  noRealizado : σ → ℚ → ℚ
  curva : σ → List Punto

section Libro

variable {σ : Type} (l : Libro σ) (body : σ → Barra → Except String σ) (s₀ : σ)
  (datos : List Barra)

/-- Every point of a curve is what has been booked up to its bar and the open result. -/
def Identidad (curva : List Punto) : Prop :=
  ∀ antes bar despues cierre, datos = antes ++ bar :: despues →
    precioValido bar.close = some cierre →
    ∃ s, (antes ++ [bar]).foldlM body s₀ = .ok s ∧
      curva[antes.length + 1]? =
        some ⟨some bar.fecha, l.inicial + l.netos s + l.noRealizado s cierre⟩

/-- The state before each bar and its close are such that the bar keeps the identity. -/
def Siempre (Fiel : σ → Barra → ℚ → Prop) : Prop :=
  ∀ antes bar despues s cierre, datos = antes ++ bar :: despues →
    antes.foldlM body s₀ = .ok s → precioValido bar.close = some cierre → Fiel s bar cierre

variable {l body s₀ datos} {I : σ → Prop} {Fiel : σ → Barra → ℚ → Prop} {t : σ}

/-- A run of bars with valid closes keeps what one of them keeps. -/
theorem libro_invariant (hvalid : ∀ bar ∈ datos, (precioValido bar.close).isSome = true)
    (hround : ∀ s bar s' cierre, I s → body s bar = .ok s' →
      precioValido bar.close = some cierre → I s')
    (hs₀ : I s₀) (h : datos.foldlM body s₀ = .ok t) : I t := by
  refine foldlM_induction (fun s bar s' hbar hs hok => ?_) hs₀ h
  obtain ⟨cierre, hcierre⟩ := Option.isSome_iff_exists.mp (hvalid bar hbar)
  exact hround s bar s' cierre hs hok hcierre

/-- The curve is the identity exactly when every bar is faithful to it. -/
theorem identidad_iff (hvalid : ∀ bar ∈ datos, (precioValido bar.close).isSome = true)
    (hcurva : ∀ s bar s', body s bar = .ok s' → ∃ p, l.curva s' = l.curva s ++ [p])
    (hround : ∀ s bar s' cierre, I s → body s bar = .ok s' →
      precioValido bar.close = some cierre → I s')
    (hpunto : ∀ s bar s' cierre, I s → body s bar = .ok s' →
      precioValido bar.close = some cierre →
      ∃ capital, l.curva s' = l.curva s ++ [⟨some bar.fecha, capital⟩] ∧
        (capital = l.inicial + l.netos s' + l.noRealizado s' cierre ↔ Fiel s bar cierre))
    (hs₀ : I s₀) (hone : (l.curva s₀).length = 1) (h : datos.foldlM body s₀ = .ok t) :
    Identidad l body s₀ datos (l.curva t) ↔ Siempre body s₀ datos Fiel := by
  -- the round of one bar, and its point in the finished curve
  have hat : ∀ antes bar despues cierre, datos = antes ++ bar :: despues →
      precioValido bar.close = some cierre →
      ∃ s s' capital, antes.foldlM body s₀ = .ok s ∧ (antes ++ [bar]).foldlM body s₀ = .ok s' ∧
        (l.curva t)[antes.length + 1]? = some ⟨some bar.fecha, capital⟩ ∧
        (capital = l.inicial + l.netos s' + l.noRealizado s' cierre ↔ Fiel s bar cierre) := by
    intro antes bar despues cierre hdatos hcierre
    subst hdatos
    obtain ⟨s, s', hbefore, hbar, hupto, hafter⟩ := round_of_foldlM h
    have hs : I s := libro_invariant
      (fun b hb => hvalid b (List.mem_append.mpr (.inl hb))) hround hs₀ hbefore
    obtain ⟨capital, hp, hiff⟩ := hpunto s bar s' cierre hs hbar hcierre
    have hplace := getElem?_foldlM hcurva hbefore hafter hp
    rw [hone, Nat.add_comm] at hplace
    exact ⟨s, s', capital, hbefore, hupto, hplace, hiff⟩
  constructor
  · intro hid antes bar despues s cierre hdatos hs hcierre
    obtain ⟨s₁, s', capital, hbefore, hupto, hplace, hiff⟩ := hat antes bar despues cierre hdatos hcierre
    obtain rfl := Except.ok.inj (hs.symm.trans hbefore)
    obtain ⟨s₂, hs₂, hpoint⟩ := hid antes bar despues cierre hdatos hcierre
    obtain rfl := Except.ok.inj (hupto.symm.trans hs₂)
    have hsame := Option.some.inj (hplace.symm.trans hpoint)
    exact hiff.mp (congrArg Punto.capital hsame)
  · intro hsiempre antes bar despues cierre hdatos hcierre
    obtain ⟨s, s', capital, hbefore, hupto, hplace, hiff⟩ := hat antes bar despues cierre hdatos hcierre
    have hcapital := hiff.mpr (hsiempre antes bar despues s cierre hdatos hbefore hcierre)
    exact ⟨s', hupto, by rw [hplace, hcapital]⟩

/-- The last point of such a curve shows the open result of the finished state. -/
theorem last_of_identidad (hvalid : ∀ bar ∈ datos, (precioValido bar.close).isSome = true)
    (hcurva : ∀ s bar s', body s bar = .ok s' → ∃ p, l.curva s' = l.curva s ++ [p])
    (abierto : σ → ℚ) (habierto : ∀ s bar s' cierre, body s bar = .ok s' →
      precioValido bar.close = some cierre → l.noRealizado s' cierre = abierto s')
    (hone : (l.curva s₀).length = 1) (hne : datos ≠ []) (h : datos.foldlM body s₀ = .ok t)
    (hid : Identidad l body s₀ datos (l.curva t)) :
    (l.curva t).getLast?.map (·.capital) = some (l.inicial + l.netos t + abierto t) := by
  obtain ⟨antes, bar, hsplit⟩ := (List.eq_nil_or_concat datos).resolve_left hne
  rw [List.concat_eq_append] at hsplit
  subst hsplit
  obtain ⟨s, s', hbefore, hround, hupto, hafter⟩ := round_of_foldlM h
  obtain rfl := foldlM_nil_ok.mp hafter
  obtain ⟨cierre, hcierre⟩ := Option.isSome_iff_exists.mp
    (hvalid bar (List.mem_append.mpr (.inr List.mem_cons_self)))
  obtain ⟨t', ht', hpoint⟩ := hid antes bar [] cierre rfl hcierre
  obtain rfl := Except.ok.inj (h.symm.trans ht')
  have hlength : (l.curva s').length = antes.length + 1 + 1 := by
    rw [length_foldlM hcurva h, hone, List.length_append, List.length_singleton, Nat.add_comm]
  rw [List.getLast?_eq_getElem?, hlength, Nat.add_sub_cancel, hpoint,
    habierto s bar s' cierre hround hcierre]
  rfl

end Libro

namespace ConRiesgo

variable {eventos : List Evento} {config : ConfiguracionSimulacion} {riesgo : ConfiguracionRiesgo}
  {s s' : Estado} {bar : Barra} {a : Abierta} {cierre inicial : ℚ}

/-- The sum of `resultado_neto`. -/
def netos (operaciones : List Operacion) : ℚ := (operaciones.map (·.resultadoNeto)).sum

/-- The gross result of the open position at a close. -/
def Estado.noRealizado (s : Estado) (cierre : ℚ) : ℚ :=
  match s.abierta with
  | none => 0
  | some a => a.bruto cierre

/-- No short position stays open over a close away from its entry. -/
def MarcaFiel (eventos : List Evento) (config : ConfiguracionSimulacion)
    (riesgo : ConfiguracionRiesgo) (s : Estado) (bar : Barra) (cierre : ℚ) : Prop :=
  ∀ a, entrar eventos config riesgo s bar = some a → salir a s.posicion bar = none →
    a.side = "long" ∨ a.cantidad * (cierre - a.precioEntrada) = 0

/-! ### The books of a position -/

/-- A position that was entered with all of this capital. -/
structure Coherente (capital : ℚ) (a : Abierta) : Prop where
  efectivo : a.efectivoNoUtilizado = capital - a.capitalUtilizado
  antes : a.capitalAntes = capital
  utilizado : a.capitalUtilizado = a.cantidad * a.precioEntrada

theorem calcularPlanRiesgo_utilizado {capital : ℚ} {precio atr : Option ℚ} {side : String}
    {plan : Plan} (h : calcularPlanRiesgo capital precio riesgo atr side = some plan) :
    plan.capitalUtilizado = plan.cantidad * plan.precioEntrada := by
  simp only [calcularPlanRiesgo, Option.bind_eq_bind, Option.bind_eq_some_iff,
    Option.ite_none_left_eq_some] at h
  obtain ⟨p, -, -, -, c, -, d, -, -, h⟩ := h
  cases h
  rfl

theorem planDe_utilizado {capital : ℚ} {precio : Option ℚ} {evento : Evento} {plan : Plan}
    (h : planDe capital precio evento riesgo = some plan) :
    plan.capitalUtilizado = plan.cantidad * plan.precioEntrada := by
  unfold planDe at h
  cases hd : evento.riskDecision.filter (fun d => d.status = "APPROVED") with
  | none =>
    rw [hd] at h
    exact calcularPlanRiesgo_utilizado h
  | some d =>
    rw [hd] at h
    cases h
    rfl

theorem entrar_coherente (hs : ∀ a, s.abierta = some a → Coherente s.capital a)
    (h : entrar eventos config riesgo s bar = some a) : Coherente s.capital a := by
  unfold entrar at h
  cases hopen : s.abierta with
  | some a' =>
    rw [hopen] at h
    cases h
    exact hs a hopen
  | none =>
    rw [hopen] at h
    simp only [Option.bind_eq_bind] at h
    split_ifs at h
    simp only [Option.bind_eq_some_iff] at h
    obtain ⟨fecha, -, evento, -, plan, hplan, h⟩ := h
    cases h
    exact ⟨rfl, rfl, planDe_utilizado hplan⟩

theorem marcar_eq (hclose : precioValido bar.close = some cierre) (a : Abierta) :
    marcar a bar = { a with
      ultimoPrecio := some cierre
      ultimaFecha := some bar.fecha
      equityActual := a.efectivoNoUtilizado + a.cantidad * cierre } := by
  unfold marcar
  rw [hclose]

/-- The marks of a position do not matter for its exit. -/
theorem salir_marcar (a : Abierta) (posicion : ℕ) (bar : Barra) :
    salir (marcar a bar) posicion bar = salir a posicion bar := by
  unfold marcar
  cases precioValido bar.close <;> rfl

/-- The equity of a marked position is right exactly for a long one or at its entry. -/
theorem equity_iff (h : Coherente s.capital a) :
    a.efectivoNoUtilizado + a.cantidad * cierre = s.capital + a.bruto cierre ↔
      a.side = "long" ∨ a.cantidad * (cierre - a.precioEntrada) = 0 := by
  have hutilizado := h.utilizado
  rw [h.efectivo, Abierta.bruto]
  by_cases hlong : a.side = "long"
  · rw [if_pos hlong]
    exact iff_of_true (by ring) (.inl hlong)
  · rw [if_neg hlong]
    constructor
    · intro heq
      right
      linarith
    · intro hzero
      have hflat := hzero.resolve_left hlong
      linarith

/-! ### One bar -/

/-- Everything one bar with a valid close can do. -/
theorem paso_cases (h : paso eventos config riesgo s bar = .ok s')
    (hclose : precioValido bar.close = some cierre) :
    (entrar eventos config riesgo s bar = none ∧ s' = { s with
      posicion := s.posicion + 1
      fechaAnterior := some bar.fecha
      curva := s.curva ++ [⟨some bar.fecha, s.capital⟩] }) ∨
    (∃ a, entrar eventos config riesgo s bar = some a ∧ salir a s.posicion bar = none ∧
      s' = { s with
        posicion := s.posicion + 1
        fechaAnterior := some bar.fecha
        abierta := some (marcar a bar)
        curva := s.curva ++ [⟨some bar.fecha, a.efectivoNoUtilizado + a.cantidad * cierre⟩] }) ∨
    ∃ a precio motivo gap operacion, entrar eventos config riesgo s bar = some a ∧
      salir a s.posicion bar = some (precio, motivo, gap) ∧
      cerrar config (marcar a bar) bar precio motivo gap = .ok operacion ∧
      s' = { s with
        posicion := s.posicion + 1
        fechaAnterior := some bar.fecha
        capital := operacion.capitalDespues
        operaciones := s.operaciones ++ [operacion]
        ultimaSalida := s.posicion
        abierta := none
        curva := s.curva ++ [⟨some bar.fecha, operacion.capitalDespues⟩] } := by
  unfold paso at h
  cases hentra : entrar eventos config riesgo s bar with
  | none =>
    rw [hentra] at h
    exact .inl ⟨rfl, (Except.ok.inj h).symm⟩
  | some a =>
    simp only [hentra, salir_marcar] at h
    cases hsale : salir a s.posicion bar with
    | none =>
      simp only [hsale, hclose, Option.isSome_some, if_true] at h
      refine .inr (.inl ⟨a, rfl, hsale, (Except.ok.inj h).symm.trans ?_⟩)
      simp only [marcar_eq hclose]
    | some exit =>
      obtain ⟨precio, motivo, gap⟩ := exit
      simp only [hsale] at h
      obtain ⟨operacion, hcerrar, h⟩ := bind_eq_ok.mp h
      exact .inr (.inr ⟨a, precio, motivo, gap, operacion, rfl, hsale, hcerrar,
        (Except.ok.inj h).symm⟩)

/-- The capital is what has been booked, and the open position was entered with all of it. -/
structure Cuadra (inicial : ℚ) (s : Estado) : Prop where
  capital : s.capital = inicial + netos s.operaciones
  abierta : ∀ a, s.abierta = some a → Coherente s.capital a

theorem cerrar_eq {precio : ℚ} {motivo : String} {gap : Bool} {operacion : Operacion}
    (h : cerrar config a bar precio motivo gap = .ok operacion) :
    operacion.capitalDespues = a.capitalAntes + operacion.resultadoNeto := by
  unfold cerrar at h
  simp only at h
  split_ifs at h
  cases h
  rfl

theorem Coherente.marcar (h : Coherente s.capital a) (bar : Barra) :
    Coherente s.capital (ConRiesgo.marcar a bar) := by
  unfold ConRiesgo.marcar
  cases precioValido bar.close with
  | none => exact h
  | some close => exact ⟨h.efectivo, h.antes, h.utilizado⟩

theorem netos_append (operaciones : List Operacion) (operacion : Operacion) :
    netos (operaciones ++ [operacion]) = netos operaciones + operacion.resultadoNeto := by
  simp [netos]

/-- One bar keeps the books. -/
theorem Cuadra.paso (hs : Cuadra inicial s) (h : paso eventos config riesgo s bar = .ok s')
    (hclose : precioValido bar.close = some cierre) : Cuadra inicial s' := by
  obtain ⟨-, rfl⟩ | ⟨a, hentra, -, rfl⟩ | ⟨a, precio, motivo, gap, operacion, hentra, -, hcerrar, rfl⟩ :=
    paso_cases h hclose
  · exact ⟨hs.capital, hs.abierta⟩
  · refine ⟨hs.capital, fun a' ha' => ?_⟩
    cases ha'
    exact (entrar_coherente hs.abierta hentra).marcar bar
  · have hantes := ((entrar_coherente hs.abierta hentra).marcar bar).antes
    refine ⟨?_, fun a' ha' => (nomatch ha')⟩
    rw [cerrar_eq hcerrar, hantes, netos_append, hs.capital, add_assoc]

/-- The point of a bar is the identity exactly where the mark is that of the side. -/
theorem punto_paso (hs : Cuadra inicial s) (h : ConRiesgo.paso eventos config riesgo s bar = .ok s')
    (hclose : precioValido bar.close = some cierre) :
    ∃ capital, s'.curva = s.curva ++ [⟨some bar.fecha, capital⟩] ∧
      (capital = inicial + netos s'.operaciones + s'.noRealizado cierre ↔
        MarcaFiel eventos config riesgo s bar cierre) := by
  have hs' := hs.paso h hclose
  obtain ⟨hno, rfl⟩ | ⟨a, hentra, hsale, rfl⟩ |
    ⟨a, precio, motivo, gap, operacion, hentra, hsale, hcerrar, rfl⟩ := paso_cases h hclose
  · refine ⟨s.capital, rfl, iff_of_true ?_ ?_⟩
    · have hnone : s.abierta = none := by
        unfold entrar at hno
        cases hopen : s.abierta with
        | none => rfl
        | some a => simp [hopen] at hno
      simp only [Estado.noRealizado, hnone, add_zero]
      exact hs.capital
    · intro a ha
      rw [hno] at ha
      cases ha
  · have hcoherente := entrar_coherente hs.abierta hentra
    refine ⟨_, rfl, ?_⟩
    have hmark : (marcar a bar).bruto cierre = a.bruto cierre := by
      rw [marcar_eq hclose]
      rfl
    simp only [Estado.noRealizado, hmark, ← hs.capital, equity_iff hcoherente]
    constructor
    · intro hlong a' ha' _
      obtain rfl := Option.some.inj (hentra.symm.trans ha')
      exact hlong
    · intro hfiel
      exact hfiel a hentra hsale
  · refine ⟨operacion.capitalDespues, rfl, iff_of_true ?_ ?_⟩
    · simp only [Estado.noRealizado, add_zero]
      exact hs'.capital
    · intro a' ha' hnone
      obtain rfl := Option.some.inj (hentra.symm.trans ha')
      rw [hsale] at hnone
      cases hnone

theorem paso_curva (h : ConRiesgo.paso eventos config riesgo s bar = .ok s') :
    ∃ p, s'.curva = s.curva ++ [p] := by
  unfold ConRiesgo.paso at h
  cases hentra : entrar eventos config riesgo s bar with
  | none =>
    rw [hentra] at h
    cases h
    exact ⟨_, rfl⟩
  | some a =>
    simp only [hentra] at h
    cases hsale : salir (marcar a bar) s.posicion bar with
    | none =>
      simp only [hsale] at h
      cases h
      exact ⟨_, rfl⟩
    | some exit =>
      simp only [hsale] at h
      obtain ⟨operacion, -, h⟩ := bind_eq_ok.mp h
      cases h
      exact ⟨_, rfl⟩

/-- The position left open is marked at the close of the last bar. -/
theorem ultimoPrecio_paso (h : ConRiesgo.paso eventos config riesgo s bar = .ok s')
    (hclose : precioValido bar.close = some cierre) (ha : s'.abierta = some a) :
    a.ultimoPrecio = some cierre := by
  obtain ⟨hno, rfl⟩ | ⟨a', -, -, rfl⟩ | ⟨a', precio, motivo, gap, operacion, -, -, -, rfl⟩ :=
    paso_cases h hclose
  · unfold entrar at hno
    simp only at ha
    rw [ha] at hno
    cases hno
  · cases ha
    rw [marcar_eq hclose]
  · cases ha

/-- The unrealized result shown with an open position. -/
def mostrado (abierta : Option Abierta) : ℚ :=
  match abierta with
  | none => 0
  | some a => a.bruto (a.ultimoPrecio.getD 0)

theorem noRealizado_eq (h : ConRiesgo.paso eventos config riesgo s bar = .ok s')
    (hclose : precioValido bar.close = some cierre) :
    s'.noRealizado cierre = mostrado s'.abierta := by
  unfold Estado.noRealizado mostrado
  cases habierta : s'.abierta with
  | none => rfl
  | some a => simp only [ultimoPrecio_paso h hclose habierta, Option.getD_some]

def libro (config : ConfiguracionSimulacion) : Libro Estado :=
  ⟨config.capitalInicial, fun s => netos s.operaciones, Estado.noRealizado, Estado.curva⟩

def inicio (config : ConfiguracionSimulacion) : Estado :=
  { capital := config.capitalInicial, curva := [⟨none, config.capitalInicial⟩] }

theorem cuadra_inicio (config : ConfiguracionSimulacion) :
    Cuadra config.capitalInicial (inicio config) where
  capital := by simp [inicio, netos]
  abierta _ ha := nomatch ha

/-! ### Long positions only -/

/-- A long plan for a long event. -/
theorem planDe_side {capital : ℚ} {precio : Option ℚ} {evento : Evento} {plan : Plan}
    (h : planDe capital precio evento riesgo = some plan) :
    plan.side = evento.side.getD "long" := by
  unfold planDe at h
  cases hd : evento.riskDecision.filter (fun d => d.status = "APPROVED") with
  | none =>
    simp only [hd, calcularPlanRiesgo, Option.bind_eq_bind, Option.bind_eq_some_iff,
      Option.ite_none_left_eq_some] at h
    obtain ⟨p, -, -, -, c, -, d, -, -, h⟩ := h
    cases h
    rfl
  | some d =>
    rw [hd] at h
    cases h
    rfl

variable (hlong : ∀ evento ∈ eventos, evento.side.getD "long" = "long")

include hlong

theorem entrar_long (hs : ∀ a, s.abierta = some a → a.side = "long")
    (h : entrar eventos config riesgo s bar = some a) : a.side = "long" := by
  unfold entrar at h
  cases hopen : s.abierta with
  | some a' =>
    rw [hopen] at h
    cases h
    exact hs a hopen
  | none =>
    simp only [hopen, Option.bind_eq_bind, Option.ite_none_right_eq_some,
      Option.bind_eq_some_iff] at h
    obtain ⟨-, fecha, -, evento, hevento, plan, hplan, h⟩ := h
    cases h
    have hmem : evento ∈ eventos :=
      List.mem_reverse.mp (List.mem_of_find?_eq_some hevento)
    exact (planDe_side hplan).trans (hlong evento hmem)

theorem long_paso (hs : ∀ a, s.abierta = some a → a.side = "long")
    (h : ConRiesgo.paso eventos config riesgo s bar = .ok s')
    (hclose : precioValido bar.close = some cierre) :
    ∀ a, s'.abierta = some a → a.side = "long" := by
  intro a ha
  obtain ⟨-, rfl⟩ | ⟨a', hentra, -, rfl⟩ | ⟨a', precio, motivo, gap, operacion, -, -, -, rfl⟩ :=
    paso_cases h hclose
  · exact hs a ha
  · have hside := entrar_long hlong hs hentra
    cases ha
    rw [marcar_eq hclose]
    exact hside
  · cases ha

end ConRiesgo

/-! ### V1 -/

namespace V1

variable {eventos : List Evento} {config : ConfiguracionSimulacion} {s s' : Estado} {bar : Barra}
  {a : Abierta} {cierre inicial : ℚ}

def netos (operaciones : List Operacion) : ℚ := (operaciones.map (·.resultadoNeto)).sum

def Estado.noRealizado (s : Estado) (cierre : ℚ) : ℚ :=
  match s.abierta with
  | none => 0
  | some a => a.bruto cierre

structure Coherente (capital : ℚ) (a : Abierta) : Prop where
  libre : a.capitalNoUtilizado = capital - a.capitalUtilizado
  antes : a.capitalAntes = capital

theorem entrar_coherente (hs : ∀ a, s.abierta = some a → Coherente s.capital a)
    (h : entrar eventos config s bar = some a) : Coherente s.capital a := by
  unfold entrar at h
  cases hopen : s.abierta with
  | some a' =>
    rw [hopen] at h
    cases h
    exact hs a hopen
  | none =>
    simp only [hopen, Option.bind_eq_bind, Option.ite_none_right_eq_some,
      Option.bind_eq_some_iff] at h
    obtain ⟨fecha, -, -, precio, -, h⟩ := h
    cases h
    exact ⟨rfl, rfl⟩

theorem paso_cases (h : paso eventos config s bar = .ok s')
    (hclose : precioValido bar.close = some cierre) :
    (entrar eventos config s bar = none ∧ s' = { s with
      posicion := s.posicion + 1
      fechaAnterior := some bar.fecha
      curva := s.curva ++ [⟨some bar.fecha, s.capital⟩] }) ∨
    ∃ a, entrar eventos config s bar = some a ∧
      (s' = { s with
        posicion := s.posicion + 1
        fechaAnterior := some bar.fecha
        capital := (cerrar a bar cierre).capitalDespues
        operaciones := s.operaciones ++ [cerrar a bar cierre]
        abierta := none
        curva := s.curva ++ [⟨some bar.fecha, (cerrar a bar cierre).capitalDespues⟩] } ∨
      s' = { s with
        posicion := s.posicion + 1
        fechaAnterior := some bar.fecha
        abierta := some
          { a with ultimoPrecio := some cierre, valorActual := some (a.cantidad * cierre) }
        curva := s.curva ++ [⟨some bar.fecha, a.capitalNoUtilizado + a.cantidad * cierre⟩] }) := by
  unfold paso at h
  cases hentra : entrar eventos config s bar with
  | none =>
    rw [hentra] at h
    exact .inl ⟨rfl, (Except.ok.inj h).symm⟩
  | some a =>
    simp only [hentra, hclose] at h
    by_cases hsale : a.posicionSalida = s.posicion
    · rw [if_pos hsale] at h
      exact .inr ⟨a, rfl, .inl (Except.ok.inj h).symm⟩
    · rw [if_neg hsale] at h
      exact .inr ⟨a, rfl, .inr (Except.ok.inj h).symm⟩

structure Cuadra (inicial : ℚ) (s : Estado) : Prop where
  capital : s.capital = inicial + netos s.operaciones
  abierta : ∀ a, s.abierta = some a → Coherente s.capital a

theorem Cuadra.paso (hs : Cuadra inicial s) (h : paso eventos config s bar = .ok s')
    (hclose : precioValido bar.close = some cierre) : Cuadra inicial s' := by
  obtain ⟨-, rfl⟩ | ⟨a, hentra, rfl | rfl⟩ := paso_cases h hclose
  · exact ⟨hs.capital, hs.abierta⟩
  · have hantes := (entrar_coherente hs.abierta hentra).antes
    refine ⟨?_, fun a' ha' => (nomatch ha')⟩
    have hdespues : (cerrar a bar cierre).capitalDespues =
        a.capitalAntes + (cerrar a bar cierre).resultadoNeto := rfl
    simp only [hdespues, hantes, hs.capital, netos, List.map_append, List.map_cons, List.map_nil,
      List.sum_append, List.sum_singleton, add_assoc]
  · refine ⟨hs.capital, fun a' ha' => ?_⟩
    have hcoherente := entrar_coherente hs.abierta hentra
    cases ha'
    exact ⟨hcoherente.libre, hcoherente.antes⟩

theorem punto_paso (hs : Cuadra inicial s) (h : V1.paso eventos config s bar = .ok s')
    (hclose : precioValido bar.close = some cierre) :
    ∃ capital, s'.curva = s.curva ++ [⟨some bar.fecha, capital⟩] ∧
      capital = inicial + netos s'.operaciones + s'.noRealizado cierre := by
  have hs' := hs.paso h hclose
  obtain ⟨hno, rfl⟩ | ⟨a, hentra, rfl | rfl⟩ := paso_cases h hclose
  · have hnone : s.abierta = none := by
      unfold entrar at hno
      cases hopen : s.abierta with
      | none => rfl
      | some a => simp [hopen] at hno
    refine ⟨s.capital, rfl, ?_⟩
    simp only [Estado.noRealizado, hnone, add_zero]
    exact hs.capital
  · refine ⟨_, rfl, ?_⟩
    simp only [Estado.noRealizado, add_zero]
    exact hs'.capital
  · refine ⟨_, rfl, ?_⟩
    have hlibre := (entrar_coherente hs.abierta hentra).libre
    have hcapital := hs.capital
    simp only [Estado.noRealizado, Abierta.bruto]
    linarith

theorem paso_curva (h : V1.paso eventos config s bar = .ok s') :
    ∃ p, s'.curva = s.curva ++ [p] := by
  unfold V1.paso at h
  cases hentra : entrar eventos config s bar with
  | none =>
    rw [hentra] at h
    cases h
    exact ⟨_, rfl⟩
  | some a =>
    simp only [hentra] at h
    cases hclose : precioValido bar.close with
    | none =>
      rw [hclose] at h
      cases h
    | some cierre =>
      simp only [hclose] at h
      by_cases hsale : a.posicionSalida = s.posicion
      · rw [if_pos hsale] at h
        cases h
        exact ⟨_, rfl⟩
      · rw [if_neg hsale] at h
        cases h
        exact ⟨_, rfl⟩

theorem ultimoPrecio_paso (h : V1.paso eventos config s bar = .ok s')
    (hclose : precioValido bar.close = some cierre) (ha : s'.abierta = some a) :
    a.ultimoPrecio = some cierre := by
  obtain ⟨hno, rfl⟩ | ⟨a', -, rfl | rfl⟩ := paso_cases h hclose
  · unfold entrar at hno
    simp only at ha
    rw [ha] at hno
    cases hno
  · cases ha
  · cases ha
    rfl

/-- The unrealized result shown with an open position. -/
def mostrado (abierta : Option Abierta) : ℚ :=
  match abierta with
  | none => 0
  | some a => a.bruto (a.ultimoPrecio.getD 0)

theorem noRealizado_eq (h : V1.paso eventos config s bar = .ok s')
    (hclose : precioValido bar.close = some cierre) :
    s'.noRealizado cierre = mostrado s'.abierta := by
  unfold Estado.noRealizado mostrado
  cases habierta : s'.abierta with
  | none => rfl
  | some a => simp only [ultimoPrecio_paso h hclose habierta, Option.getD_some]

def libro (config : ConfiguracionSimulacion) : Libro Estado :=
  ⟨config.capitalInicial, fun s => netos s.operaciones, Estado.noRealizado, Estado.curva⟩

def inicio (config : ConfiguracionSimulacion) : Estado :=
  { capital := config.capitalInicial, curva := [⟨none, config.capitalInicial⟩] }

theorem cuadra_inicio (config : ConfiguracionSimulacion) :
    Cuadra config.capitalInicial (inicio config) where
  capital := by simp [inicio, netos]
  abierta _ ha := nomatch ha

end V1

/-! ### The results -/

variable {eventos : List Evento} {config : ConfiguracionSimulacion} {riesgo : ConfiguracionRiesgo}
  {ordenados : List Barra}

/-- What the result of `simular_operaciones_con_riesgo` should mean. -/
structure ResultadoConRiesgo.Significa (r : ResultadoConRiesgo) (eventos : List Evento)
    (config : ConfiguracionSimulacion) (riesgo : ConfiguracionRiesgo) (ordenados : List Barra) :
    Prop where
  puntos : Identidad (ConRiesgo.libro config) (ConRiesgo.paso eventos config riesgo)
    (ConRiesgo.inicio config) ordenados r.curvaCapital
  realizado : r.capitalRealizado = r.capitalInicial + ConRiesgo.netos r.operaciones
  final : r.capitalFinal - r.capitalRealizado = ConRiesgo.mostrado r.posicionAbierta

structure ResultadoV1.Significa (r : ResultadoV1) (eventos : List Evento)
    (config : ConfiguracionSimulacion) (ordenados : List Barra) : Prop where
  puntos : Identidad (V1.libro config) (V1.paso eventos config) (V1.inicio config) ordenados
    r.curvaCapital
  realizado : r.capitalRealizado = r.capitalInicial + V1.netos r.operaciones
  final : r.capitalFinal - r.capitalRealizado = V1.mostrado r.posicionAbierta

section ConRiesgo

open ConRiesgo

variable (hvalid : ∀ bar ∈ ordenados, (precioValido bar.close).isSome = true) {t : Estado}
  (h : bucle eventos config riesgo ordenados = .ok t)

include hvalid h

theorem cuadra_bucle : Cuadra config.capitalInicial t :=
  libro_invariant hvalid (fun _ _ _ _ hs hok hclose => hs.paso hok hclose)
    (cuadra_inicio config) h

theorem puntos_iff :
    Identidad (libro config) (paso eventos config riesgo) (inicio config) ordenados t.curva ↔
      Siempre (paso eventos config riesgo) (inicio config) ordenados
        (MarcaFiel eventos config riesgo) :=
  identidad_iff hvalid (fun _ _ _ hok => paso_curva hok)
    (fun _ _ _ _ hs hok hclose => hs.paso hok hclose)
    (fun _ _ _ _ hs hok hclose => punto_paso hs hok hclose) (cuadra_inicio config) rfl h

omit h in
/-- Long events open long positions, and those are marked as what they are. -/
theorem siempre_long (hlong : ∀ evento ∈ eventos, evento.side.getD "long" = "long") :
    Siempre (paso eventos config riesgo) (inicio config) ordenados
      (MarcaFiel eventos config riesgo) := by
  intro antes bar despues s cierre hsplit hbefore hclose a ha _
  have hvalid' : ∀ b ∈ antes, (precioValido b.close).isSome = true := fun b hb =>
    hvalid b (hsplit ▸ List.mem_append.mpr (.inl hb))
  have hsides : ∀ a, s.abierta = some a → a.side = "long" :=
    libro_invariant (I := fun s => ∀ a, s.abierta = some a → a.side = "long") hvalid'
      (fun _ _ _ _ hs hok hcierre => long_paso hlong hs hok hcierre)
      (fun a ha => by cases ha) hbefore
  exact .inl (entrar_long hlong hsides ha)

theorem significa_iff (hne : ordenados ≠ []) {r : ResultadoConRiesgo}
    (hr : r = ⟨config.capitalInicial,
      (t.curva.getLast?.map (·.capital)).getD config.capitalInicial, t.capital, t.operaciones,
      t.curva, t.abierta⟩) :
    r.Significa eventos config riesgo ordenados ↔
      Siempre (paso eventos config riesgo) (inicio config) ordenados
        (MarcaFiel eventos config riesgo) := by
  rw [← puntos_iff hvalid h]
  subst hr
  constructor
  · intro hsignifica
    exact hsignifica.puntos
  · intro hpuntos
    have hcapital : t.capital = config.capitalInicial + netos t.operaciones :=
      (cuadra_bucle hvalid h).capital
    have hlast : t.curva.getLast?.map (·.capital) =
        some (config.capitalInicial + netos t.operaciones + mostrado t.abierta) :=
      last_of_identidad hvalid (fun _ _ _ hok => paso_curva hok) (fun s => mostrado s.abierta)
        (fun _ _ _ _ hok hcierre => noRealizado_eq hok hcierre) rfl hne h hpuntos
    refine ⟨hpuntos, hcapital, ?_⟩
    simp only [hlast, Option.getD_some, hcapital, add_sub_cancel_left]

end ConRiesgo

/-- The curve of V1 is what it should be, for every list of events. -/
theorem significa_v1 {t : V1.Estado}
    (hvalid : ∀ bar ∈ ordenados, (precioValido bar.close).isSome = true)
    (h : V1.bucle eventos config ordenados = .ok t) (hne : ordenados ≠ []) {r : ResultadoV1}
    (hr : r = ⟨config.capitalInicial,
      (t.curva.getLast?.map (·.capital)).getD config.capitalInicial, t.capital, t.abierta,
      t.operaciones, t.curva⟩) :
    r.Significa eventos config ordenados := by
  subst hr
  have hpuntos : Identidad (V1.libro config) (V1.paso eventos config) (V1.inicio config) ordenados
      t.curva := by
    have hsiempre : Siempre (V1.paso eventos config) (V1.inicio config) ordenados
        (fun _ _ _ => True) := fun _ _ _ _ _ _ _ _ => trivial
    refine (identidad_iff hvalid (fun _ _ _ hok => V1.paso_curva hok)
      (fun _ _ _ _ hs hok hclose => hs.paso hok hclose) ?_
      (V1.cuadra_inicio config) rfl h).mpr hsiempre
    intro s bar s' cierre hs hok hclose
    obtain ⟨capital, hcurva, hcapital⟩ := V1.punto_paso hs hok hclose
    exact ⟨capital, hcurva, iff_of_true hcapital trivial⟩
  have hcuadra : V1.Cuadra config.capitalInicial t :=
    libro_invariant hvalid (fun _ _ _ _ hs hok hclose => hs.paso hok hclose)
      (V1.cuadra_inicio config) h
  have hcapital := hcuadra.capital
  have hlast : t.curva.getLast?.map (·.capital) =
      some (config.capitalInicial + V1.netos t.operaciones + V1.mostrado t.abierta) :=
    last_of_identidad hvalid (fun _ _ _ hok => V1.paso_curva hok) (fun s => V1.mostrado s.abierta)
      (fun _ _ _ _ hok hcierre => V1.noRealizado_eq hok hcierre) rfl hne h hpuntos
  refine ⟨hpuntos, hcapital, ?_⟩
  simp only [hlast, Option.getD_some, hcapital, add_sub_cancel_left]

theorem mem_of_ordenar {datos : List Barra} (h : ordenarDatosTemporales datos = .ok ordenados)
    {bar : Barra} : bar ∈ ordenados ↔ bar ∈ datos := by
  unfold ordenarDatosTemporales at h
  split_ifs at h
  cases h
  exact (List.perm_insertionSort _ _).mem_iff

/-- The result means what it should, and so does that of V1, exactly when no short position
stays open over a close away from its entry; with long events only it always does. -/
theorem equity_iff_marked_by_side {datos : List Barra} {configuracion : ConfiguracionSimulacion}
    (hvalid : ∀ bar ∈ datos, bar.Valida)
    (hordenados : ordenarDatosTemporales datos = .ok ordenados)
    (hconfig : crearConfiguracionSimulacion configuracion = some config) {r : ResultadoConRiesgo}
    (hr : simularOperacionesConRiesgo datos eventos configuracion riesgo = .ok (some r)) :
    ((r.Significa eventos config riesgo ordenados ∧
        ∀ r', simularOperaciones datos eventos configuracion = .ok (some r') →
          r'.Significa eventos config ordenados) ↔
      Siempre (ConRiesgo.paso eventos config riesgo) (ConRiesgo.inicio config) ordenados
        (ConRiesgo.MarcaFiel eventos config riesgo)) ∧
    r.capitalRealizado = r.capitalInicial + ConRiesgo.netos r.operaciones ∧
    ((∀ evento ∈ eventos, evento.side.getD "long" = "long") →
      r.Significa eventos config riesgo ordenados) := by
  have hclose : ∀ bar ∈ ordenados, (precioValido bar.close).isSome = true := fun bar hbar =>
    (hvalid bar ((mem_of_ordenar hordenados).mp hbar)).close
  have hnonempty : datos ≠ [] := by
    intro hnil
    rw [simularOperacionesConRiesgo, if_pos hnil] at hr
    cases hr
  have hne : ordenados ≠ [] := by
    obtain ⟨bar, hbar⟩ := List.exists_mem_of_ne_nil datos hnonempty
    exact List.ne_nil_of_mem ((mem_of_ordenar hordenados).mpr hbar)
  simp only [simularOperacionesConRiesgo, if_neg hnonempty, hconfig] at hr
  obtain ⟨o, ho, hrest⟩ := bind_eq_ok.mp hr
  obtain rfl := Except.ok.inj (hordenados.symm.trans ho)
  obtain ⟨t, ht, hreturn⟩ := bind_eq_ok.mp hrest
  have hresult := (Option.some.inj (Except.ok.inj hreturn)).symm
  have hiff := significa_iff hclose ht hne hresult
  have hv1 : ∀ r', simularOperaciones datos eventos configuracion = .ok (some r') →
      r'.Significa eventos config ordenados := by
    intro r' hr'
    simp only [simularOperaciones, if_neg hnonempty, hconfig] at hr'
    obtain ⟨o', ho', hrest'⟩ := bind_eq_ok.mp hr'
    obtain rfl := Except.ok.inj (hordenados.symm.trans ho')
    obtain ⟨t', ht', hreturn'⟩ := bind_eq_ok.mp hrest'
    exact significa_v1 hclose ht' hne (Option.some.inj (Except.ok.inj hreturn')).symm
  refine ⟨?_, ?_, fun hlong => hiff.mpr (siempre_long hclose hlong)⟩
  · rw [← hiff]
    exact ⟨fun h => h.1, fun h => ⟨h, hv1⟩⟩
  · rw [hresult]
    exact (cuadra_bucle hclose ht).capital

section Runs

private def barraEn (fecha : Fecha) (precio : ℚ) : Barra :=
  ⟨fecha, some 100, some 105, some 85, some precio⟩

private def dosBarras : List Barra := [barraEn 0 100, barraEn 1 90]

private def configuracionBase : ConfiguracionSimulacion := ⟨10000, 100, 5, 0⟩

private def riesgoBase : ConfiguracionRiesgo := ⟨1, "atr", 2, 2, 100, 2⟩

/-- Ten units at 100, decided after the first bar. -/
private def senal (side : String) (stop target : ℚ) : List Evento :=
  [⟨0, some side, some ⟨"APPROVED", 100, stop, target, 10, 100, none⟩, none⟩]

private theorem dosBarras_validas : ∀ bar ∈ dosBarras, bar.Valida := fun bar h =>
  { open_ := (by decide +kernel : ∀ b ∈ dosBarras, (precioValido b.open_).isSome = true) bar h
    high := (by decide +kernel : ∀ b ∈ dosBarras, (precioValido b.high).isSome = true) bar h
    low := (by decide +kernel : ∀ b ∈ dosBarras, (precioValido b.low).isSome = true) bar h
    close := (by decide +kernel : ∀ b ∈ dosBarras, (precioValido b.close).isSome = true) bar h }

private theorem dosBarras_ordenadas : ordenarDatosTemporales dosBarras = .ok dosBarras := by
  decide +kernel

/-- A long position over the same bars. -/
theorem equity_iff_marked_by_side_long : ∃ r,
    simularOperacionesConRiesgo dosBarras (senal "long" 80 130) configuracionBase riesgoBase
      = .ok (some r) ∧
    r.Significa (senal "long" 80 130) configuracionBase riesgoBase dosBarras := by
  cases hr : simularOperacionesConRiesgo dosBarras (senal "long" 80 130) configuracionBase
      riesgoBase with
  | error e =>
    have hok : (simularOperacionesConRiesgo dosBarras (senal "long" 80 130) configuracionBase
      riesgoBase).toOption.isSome = true := by decide +kernel
    rw [hr] at hok
    cases hok
  | ok result =>
    cases result with
    | none =>
      have hsome : (simularOperacionesConRiesgo dosBarras (senal "long" 80 130) configuracionBase
        riesgoBase).map Option.isSome = .ok true := by decide +kernel
      rw [hr] at hsome
      cases hsome
    | some r =>
      have hconfig : crearConfiguracionSimulacion configuracionBase = some configuracionBase :=
        rfl
      have hlong : ∀ evento ∈ senal "long" 80 130, evento.side.getD "long" = "long" := by
        decide +kernel
      exact ⟨r, rfl, (equity_iff_marked_by_side dosBarras_validas dosBarras_ordenadas hconfig
        hr).2.2 hlong⟩

/-- Ten short units from 100 are worth 100 more at 90; the curve falls by 100. -/
theorem short_marked_as_long :
    (∀ bar ∈ dosBarras, bar.Valida) ∧
    (simularOperacionesConRiesgo dosBarras (senal "short" 110 70) configuracionBase
        riesgoBase).map (Option.map (fun r => (r.operaciones, r.capitalRealizado, r.capitalFinal,
          ConRiesgo.mostrado r.posicionAbierta))) =
      .ok (some ([], 10000, 9900, 100)) :=
  ⟨dosBarras_validas, by decide +kernel⟩

end Runs

end MarketSystem.Simulador
