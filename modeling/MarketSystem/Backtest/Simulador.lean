import Mathlib.Algebra.Order.Ring.Rat
import Mathlib.Algebra.BigOperators.Group.List.Basic
import Mathlib.Data.List.Sort
import MarketSystem.Library.FallibleLoop

/-!
# The backtest

Bars in order of their dates, one position at a time. `simular_operaciones` buys at the open
after a signal and sells after a fixed number of bars; `simular_operaciones_con_riesgo` takes
both sides and leaves by stop, target or time. A price that is no finite number is `none`.
-/
namespace MarketSystem.Simulador

abbrev Fecha := ℤ

structure Barra where
  fecha : Fecha
  open_ : Option ℚ
  high : Option ℚ
  low : Option ℚ
  close : Option ℚ
  deriving DecidableEq

/-- `_precio_valido`, with the price as a float. -/
def precioValido (valor : Option ℚ) : Option ℚ := valor.filter (fun v => decide (0 < v))

structure ConfiguracionSimulacion where
  capitalInicial : ℚ
  porcentajeCapitalPorOperacion : ℚ
  periodoSalida : ℤ
  costePorcentual : ℚ

/-- `crear_configuracion_simulacion` -/
def crearConfiguracionSimulacion (c : ConfiguracionSimulacion) : Option ConfiguracionSimulacion :=
  if c.capitalInicial ≤ 0 then none
  else if c.porcentajeCapitalPorOperacion ≤ 0 ∨ 100 < c.porcentajeCapitalPorOperacion then none
  else if c.periodoSalida ≤ 0 then none
  else if c.costePorcentual < 0 then none
  else some c

structure ConfiguracionRiesgo where
  riesgoPorOperacionPct : ℚ
  metodoStop : String
  atrMultiplicador : ℚ
  ratioObjetivo : ℚ
  maximoCapitalPct : ℚ
  stopPorcentualPct : ℚ

/-- `crear_configuracion_riesgo` -/
def crearConfiguracionRiesgo (c : ConfiguracionRiesgo) : Option ConfiguracionRiesgo :=
  if ¬(0 < c.riesgoPorOperacionPct ∧ c.riesgoPorOperacionPct ≤ 100) then none
  else if c.metodoStop ≠ "atr" ∧ c.metodoStop ≠ "porcentual" then none
  else if c.atrMultiplicador ≤ 0 then none
  else if c.ratioObjetivo ≤ 0 then none
  else if ¬(0 < c.maximoCapitalPct ∧ c.maximoCapitalPct ≤ 100) then none
  else if c.stopPorcentualPct ≤ 0 then none
  else some c

/-- What a position and its operation keep of the plan. -/
structure Niveles where
  precioEntrada : ℚ
  riesgoMonetarioMaximo : ℚ
  riesgoUnitario : ℚ
  cantidad : ℚ
  capitalUtilizado : ℚ
  stop : ℚ
  target : ℚ
  metodoStop : String
  side : String
  deriving DecidableEq

/-- The bounds of the quantity. -/
structure Limites where
  cantidadPorRiesgo : ℚ
  capitalMaximo : ℚ
  cantidadPorCapital : ℚ
  deriving DecidableEq

structure Plan extends Niveles where
  capitalActual : ℚ
  limites : Option Limites
  deriving DecidableEq

/-- The distance of the stop from the entry. -/
def distanciaStop (config : ConfiguracionRiesgo) (precio : ℚ) (atr : Option ℚ) : Option ℚ :=
  if config.metodoStop = "atr" then
    (atr.filter (fun a => decide (0 < a))).map (· * config.atrMultiplicador)
  else some (precio * config.stopPorcentualPct / 100)

/-- `calcular_plan_riesgo` -/
def calcularPlanRiesgo (capitalActual : ℚ) (precioEntrada : Option ℚ)
    (configuracion : ConfiguracionRiesgo) (atr : Option ℚ) (side : String) : Option Plan := do
  let precio ← precioEntrada
  if capitalActual ≤ 0 ∨ precio ≤ 0 then none
  else if side ≠ "long" ∧ side ≠ "short" then none
  else
    let config ← crearConfiguracionRiesgo configuracion
    let distancia ← distanciaStop config precio atr
    let stop := if side = "long" then precio - distancia else precio + distancia
    if stop ≤ 0 then none
    else
      let riesgoUnitario := |precio - stop|
      let riesgoMonetario := capitalActual * config.riesgoPorOperacionPct / 100
      let capitalMaximo := capitalActual * config.maximoCapitalPct / 100
      let limites : Limites :=
        ⟨riesgoMonetario / riesgoUnitario, capitalMaximo, capitalMaximo / precio⟩
      let cantidad := min limites.cantidadPorRiesgo limites.cantidadPorCapital
      some
        { capitalActual := capitalActual
          precioEntrada := precio
          riesgoMonetarioMaximo := riesgoMonetario
          riesgoUnitario := riesgoUnitario
          cantidad := cantidad
          capitalUtilizado := cantidad * precio
          stop := stop
          target := if side = "long" then precio + riesgoUnitario * config.ratioObjetivo
            else precio - riesgoUnitario * config.ratioObjetivo
          metodoStop := config.metodoStop
          side := side
          limites := some limites }

/-- The `risk_decision` of an event. -/
structure Decision where
  status : String
  entry : ℚ
  stop : ℚ
  target : ℚ
  quantity : ℚ
  capitalAtRisk : ℚ
  method : Option String

structure Evento where
  fecha : Fecha
  side : Option String
  riskDecision : Option Decision
  atrSenal : Option ℚ

/-- `eventos_por_fecha`: the last event of a date. -/
def eventoDe (eventos : List Evento) (fecha : Fecha) : Option Evento :=
  eventos.reverse.find? (fun evento => evento.fecha = fecha)

/-- `ordenar_datos_temporales` -/
def ordenarDatosTemporales (datos : List Barra) : Except String (List Barra) :=
  if (datos.map (·.fecha)).Nodup then
    .ok (datos.insertionSort (fun a b => a.fecha ≤ b.fecha))
  else .error "El índice temporal contiene fechas duplicadas."

/-- A point of `curva_capital`. -/
structure Punto where
  fecha : Option Fecha
  capital : ℚ
  deriving DecidableEq

/-! ### With risk -/

namespace ConRiesgo

/-- `abierta` -/
structure Abierta extends Plan where
  fechaSenal : Fecha
  fechaEntrada : Fecha
  efectivoNoUtilizado : ℚ
  stopInicial : ℚ
  targetInicial : ℚ
  posicionEntrada : ℕ
  posicionSalidaLimite : ℤ
  capitalAntes : ℚ
  atrSenal : Option ℚ
  ultimoPrecio : Option ℚ
  ultimaFecha : Option Fecha
  equityActual : ℚ
  deriving DecidableEq

structure Operacion extends Niveles where
  fechaSenal : Fecha
  fechaEntrada : Fecha
  capitalAntes : ℚ
  atrSenal : Option ℚ
  fechaSalida : Fecha
  precioSalida : ℚ
  stopInicial : ℚ
  targetInicial : ℚ
  motivoSalida : String
  salidaPorGap : Bool
  resultadoBruto : ℚ
  coste : ℚ
  resultadoNeto : ℚ
  retornoBrutoPct : ℚ
  retornoNetoPct : ℚ
  capitalDespues : ℚ
  deriving DecidableEq

/-- The gross result of the position at a price, for its own side. -/
def Abierta.bruto (a : Abierta) (precio : ℚ) : ℚ :=
  if a.side = "long" then a.cantidad * precio - a.capitalUtilizado
  else a.cantidad * (a.precioEntrada - precio)

/-- The variables of the loop; `posicion` and `fechaAnterior` are those of the index. -/
structure Estado where
  posicion : ℕ := 0
  fechaAnterior : Option Fecha := none
  capital : ℚ
  operaciones : List Operacion := []
  curva : List Punto
  abierta : Option Abierta := none
  ultimaSalida : ℤ := -1

/-- An approved decision is taken as it is; other events are sized here. -/
def planDe (capital : ℚ) (precioEntrada : Option ℚ) (evento : Evento)
    (riesgo : ConfiguracionRiesgo) : Option Plan :=
  let side := evento.side.getD "long"
  match evento.riskDecision.filter (fun d => d.status = "APPROVED") with
  | some d => some
      { capitalActual := capital
        precioEntrada := d.entry
        riesgoMonetarioMaximo := d.capitalAtRisk
        riesgoUnitario := |d.entry - d.stop|
        cantidad := d.quantity
        capitalUtilizado := d.quantity * d.entry
        stop := d.stop
        target := d.target
        metodoStop := d.method.getD "plan"
        side := side
        limites := none }
  | none => calcularPlanRiesgo capital precioEntrada riesgo evento.atrSenal side

variable (eventos : List Evento) (config : ConfiguracionSimulacion) (riesgo : ConfiguracionRiesgo)

/-- The position after the entry rule of a bar. -/
def entrar (s : Estado) (bar : Barra) : Option Abierta :=
  match s.abierta with
  | some a => some a
  | none =>
    if 0 < s.posicion ∧ s.ultimaSalida < (s.posicion : ℤ) - 1 then do
      let fechaSenal ← s.fechaAnterior
      let evento ← eventoDe eventos fechaSenal
      let plan ← planDe s.capital bar.open_ evento riesgo
      some
        { plan with
          fechaSenal := fechaSenal
          fechaEntrada := bar.fecha
          efectivoNoUtilizado := s.capital - plan.capitalUtilizado
          stopInicial := plan.stop
          targetInicial := plan.target
          posicionEntrada := s.posicion
          posicionSalidaLimite := s.posicion + config.periodoSalida
          capitalAntes := s.capital
          atrSenal := evento.atrSenal
          ultimoPrecio := none
          ultimaFecha := none
          equityActual := s.capital - plan.capitalUtilizado }
    else none

/-- The position marked at the close of a bar, if that is valid. -/
def marcar (a : Abierta) (bar : Barra) : Abierta :=
  match precioValido bar.close with
  | none => a
  | some close =>
    { a with
      ultimoPrecio := some close
      ultimaFecha := some bar.fecha
      equityActual := a.efectivoNoUtilizado + a.cantidad * close }

/-- The exit of a position on a bar after its entry: price, reason and whether it is a gap. -/
def salir (a : Abierta) (posicion : ℕ) (bar : Barra) : Option (ℚ × String × Bool) :=
  if a.posicionEntrada < posicion then
    let largo := a.side = "long"
    let alcanza (precio : Option ℚ) (abajo : Bool) (nivel : ℚ) : Option ℚ :=
      (precioValido precio).filter (fun p => if abajo then decide (p ≤ nivel) else decide (nivel ≤ p))
    match alcanza bar.open_ largo a.stop with
    | some precio => some (precio, "stop", true)
    | none =>
      match alcanza bar.open_ (¬largo) a.target with
      | some precio => some (precio, "target", true)
      | none =>
        if (alcanza (if largo then bar.low else bar.high) largo a.stop).isSome then
          some (a.stop, "stop", false)
        else if (alcanza (if largo then bar.high else bar.low) (¬largo) a.target).isSome then
          some (a.target, "target", false)
        else
          match precioValido bar.close with
          | some close =>
            if a.posicionSalidaLimite ≤ posicion then some (close, "tiempo", false) else none
          | none => none
  else none

/-- The operation booked at an exit. -/
def cerrar (a : Abierta) (bar : Barra) (precio : ℚ) (motivo : String) (gap : Bool) :
    Except String Operacion :=
  let bruto := a.bruto precio
  let coste := a.capitalUtilizado * config.costePorcentual / 100
  let neto := bruto - coste
  if a.capitalUtilizado = 0 then .error "ZeroDivisionError"
  else .ok
    { a.toNiveles with
      fechaSenal := a.fechaSenal
      fechaEntrada := a.fechaEntrada
      capitalAntes := a.capitalAntes
      atrSenal := a.atrSenal
      fechaSalida := bar.fecha
      precioSalida := precio
      stopInicial := a.stopInicial
      targetInicial := a.targetInicial
      motivoSalida := motivo
      salidaPorGap := gap
      resultadoBruto := bruto
      coste := coste
      resultadoNeto := neto
      retornoBrutoPct := bruto / a.capitalUtilizado * 100
      retornoNetoPct := neto / a.capitalUtilizado * 100
      capitalDespues := a.capitalAntes + neto }

/-- One bar of the loop. -/
def paso (s : Estado) (bar : Barra) : Except String Estado :=
  let siguiente := { s with posicion := s.posicion + 1, fechaAnterior := some bar.fecha }
  match entrar eventos config riesgo s bar with
  | none => .ok { siguiente with curva := s.curva ++ [⟨some bar.fecha, s.capital⟩] }
  | some entrada =>
    let a := marcar entrada bar
    match salir a s.posicion bar with
    | none =>
      let equity := if (precioValido bar.close).isSome then a.equityActual else s.capital
      .ok { siguiente with
        abierta := some a
        curva := s.curva ++ [⟨some bar.fecha, equity⟩] }
    | some (precio, motivo, gap) => do
      let operacion ← cerrar config a bar precio motivo gap
      .ok { siguiente with
        capital := operacion.capitalDespues
        operaciones := s.operaciones ++ [operacion]
        ultimaSalida := s.posicion
        abierta := none
        curva := s.curva ++ [⟨some bar.fecha, operacion.capitalDespues⟩] }

/-- The loop over the bars. -/
def bucle (datos : List Barra) : Except String Estado :=
  datos.foldlM (paso eventos config riesgo)
    { capital := config.capitalInicial, curva := [⟨none, config.capitalInicial⟩] }

end ConRiesgo

structure ResultadoConRiesgo where
  capitalInicial : ℚ
  capitalFinal : ℚ
  capitalRealizado : ℚ
  operaciones : List ConRiesgo.Operacion
  curvaCapital : List Punto
  posicionAbierta : Option ConRiesgo.Abierta

/-- `simular_operaciones_con_riesgo` -/
def simularOperacionesConRiesgo (datos : List Barra) (eventos : List Evento)
    (configuracion : ConfiguracionSimulacion) (configuracionRiesgo : ConfiguracionRiesgo) :
    Except String (Option ResultadoConRiesgo) :=
  if datos = [] then .ok none
  else do
    let ordenados ← ordenarDatosTemporales datos
    match crearConfiguracionSimulacion configuracion with
    | none => .ok none
    | some config =>
      let s ← ConRiesgo.bucle eventos config configuracionRiesgo ordenados
      .ok (some
        { capitalInicial := config.capitalInicial
          capitalFinal := (s.curva.getLast?.map (·.capital)).getD config.capitalInicial
          capitalRealizado := s.capital
          operaciones := s.operaciones
          curvaCapital := s.curva
          posicionAbierta := s.abierta })

/-! ### V1 -/

namespace V1

/-- `abierta` -/
structure Abierta where
  fechaSenal : Fecha
  fechaEntrada : Fecha
  precioEntrada : ℚ
  cantidad : ℚ
  capitalAntes : ℚ
  capitalUtilizado : ℚ
  capitalNoUtilizado : ℚ
  posicionSalida : ℤ
  coste : ℚ
  ultimoPrecio : Option ℚ
  valorActual : Option ℚ
  deriving DecidableEq

structure Operacion where
  fechaSenal : Fecha
  fechaEntrada : Fecha
  precioEntrada : ℚ
  cantidad : ℚ
  capitalAntes : ℚ
  capitalUtilizado : ℚ
  coste : ℚ
  fechaSalida : Fecha
  precioSalida : ℚ
  resultadoBruto : ℚ
  resultadoNeto : ℚ
  retornoBrutoPct : ℚ
  retornoNetoPct : ℚ
  capitalDespues : ℚ
  deriving DecidableEq

structure Estado where
  posicion : ℕ := 0
  fechaAnterior : Option Fecha := none
  capital : ℚ
  operaciones : List Operacion := []
  curva : List Punto
  abierta : Option Abierta := none

variable (eventos : List Evento) (config : ConfiguracionSimulacion)

def Abierta.bruto (a : Abierta) (precio : ℚ) : ℚ := a.cantidad * precio - a.capitalUtilizado

def entrar (s : Estado) (bar : Barra) : Option Abierta :=
  match s.abierta with
  | some a => some a
  | none => do
    let fechaSenal ← s.fechaAnterior
    if 0 < s.capital ∧ (eventoDe eventos fechaSenal).isSome then
      let precio ← precioValido bar.open_
      let utilizado := s.capital * config.porcentajeCapitalPorOperacion / 100
      some
        { fechaSenal := fechaSenal
          fechaEntrada := bar.fecha
          precioEntrada := precio
          cantidad := utilizado / precio
          capitalAntes := s.capital
          capitalUtilizado := utilizado
          capitalNoUtilizado := s.capital - utilizado
          posicionSalida := s.posicion + config.periodoSalida
          coste := utilizado * config.costePorcentual / 100
          ultimoPrecio := none
          valorActual := none }
    else none

/-- The operation booked when the time is over. -/
def cerrar (a : Abierta) (bar : Barra) (cierre : ℚ) : Operacion :=
  let bruto := a.bruto cierre
  let neto := bruto - a.coste
  { fechaSenal := a.fechaSenal
    fechaEntrada := a.fechaEntrada
    precioEntrada := a.precioEntrada
    cantidad := a.cantidad
    capitalAntes := a.capitalAntes
    capitalUtilizado := a.capitalUtilizado
    coste := a.coste
    fechaSalida := bar.fecha
    precioSalida := cierre
    resultadoBruto := bruto
    resultadoNeto := neto
    retornoBrutoPct := bruto / a.capitalUtilizado * 100
    retornoNetoPct := neto / a.capitalUtilizado * 100
    capitalDespues := a.capitalAntes + neto }

def paso (s : Estado) (bar : Barra) : Except String Estado :=
  let siguiente := { s with posicion := s.posicion + 1, fechaAnterior := some bar.fecha }
  match entrar eventos config s bar with
  | none => .ok { siguiente with curva := s.curva ++ [⟨some bar.fecha, s.capital⟩] }
  | some a =>
    match precioValido bar.close with
    | none => .error ("Close inválido en " ++ toString bar.fecha ++
        ": no se puede valorar/cerrar la posición.")
    | some cierre =>
      if a.posicionSalida = s.posicion then
        let operacion := cerrar a bar cierre
        .ok { siguiente with
          capital := operacion.capitalDespues
          operaciones := s.operaciones ++ [operacion]
          abierta := none
          curva := s.curva ++ [⟨some bar.fecha, operacion.capitalDespues⟩] }
      else
        .ok { siguiente with
          abierta := some
            { a with ultimoPrecio := some cierre, valorActual := some (a.cantidad * cierre) }
          curva := s.curva ++ [⟨some bar.fecha, a.capitalNoUtilizado + a.cantidad * cierre⟩] }

def bucle (datos : List Barra) : Except String Estado :=
  datos.foldlM (paso eventos config)
    { capital := config.capitalInicial, curva := [⟨none, config.capitalInicial⟩] }

end V1

structure ResultadoV1 where
  capitalInicial : ℚ
  capitalFinal : ℚ
  capitalRealizado : ℚ
  posicionAbierta : Option V1.Abierta
  operaciones : List V1.Operacion
  curvaCapital : List Punto

/-- `simular_operaciones` -/
def simularOperaciones (datos : List Barra) (eventos : List Evento)
    (configuracion : ConfiguracionSimulacion) : Except String (Option ResultadoV1) :=
  if datos = [] then .ok none
  else
    match crearConfiguracionSimulacion configuracion with
    | none => .ok none
    | some config => do
      let ordenados ← ordenarDatosTemporales datos
      let s ← V1.bucle eventos config ordenados
      .ok (some
        { capitalInicial := config.capitalInicial
          capitalFinal := (s.curva.getLast?.map (·.capital)).getD config.capitalInicial
          capitalRealizado := s.capital
          posicionAbierta := s.abierta
          operaciones := s.operaciones
          curvaCapital := s.curva })

end MarketSystem.Simulador
