import TopicReader.Settings.Basic
import TopicReader.Yaml.Value

/-! The settings as a document spells them. Entries that no setting has are ignored, and a setting
without an entry keeps its default. -/
namespace TopicReader

open Yaml (Node entry?)

variable (d : Yaml.Document)

namespace SecuritySettings

def ofNode? (n : Node) : Option SecuritySettings := do
  let entries ← d.entries? n
  let text (name : String) := entry? entries name (d.optional? d.text?) (some none)
  return {
    protocol := ← entry? entries "protocol" d.text? none
    mechanism := ← text "sasl_mechanism"
    username := ← text "sasl_username"
    password := ← text "sasl_password"
    caLocation := ← text "ssl_ca_location"
    certificateLocation := ← text "ssl_certificate_location"
    keyLocation := ← text "ssl_key_location" }

end SecuritySettings

namespace BrokerSettings

def ofNode? (n : Node) : Option BrokerSettings := do
  let entries ← d.entries? n
  let base : BrokerSettings := {}
  return {
    brokers := ← entry? entries "brokers" d.text? (some base.brokers)
    clientId := ← entry? entries "client_id" d.text? (some base.clientId)
    metadataSeconds := ← entry? entries "metadata_timeout_secs" d.count? (some base.metadataSeconds)
    security := ← entry? entries "security" (d.optional? (SecuritySettings.ofNode? d)) (some none) }

end BrokerSettings

namespace ConsumeSettings

def ofNode? (n : Node) : Option ConsumeSettings := do
  let entries ← d.entries? n
  let base : ConsumeSettings := {}
  let encoding (name : String) := entry? entries name (d.choice? Encoding.ofName?)
  return {
    idleSeconds := ← entry? entries "idle_timeout_secs" d.count? (some base.idleSeconds)
    keyEncoding := ← encoding "key_encoding" (some base.keyEncoding)
    valueEncoding := ← encoding "value_encoding" (some base.valueEncoding)
    layout := ← entry? entries "output" (d.choice? Layout.ofName?) (some base.layout)
    formatJson := ← entry? entries "format_json" d.bool? (some base.formatJson) }

end ConsumeSettings

namespace LogSettings

def ofNode? (n : Node) : Option LogSettings := do
  let entries ← d.entries? n
  let base : LogSettings := {}
  return {
    level := ← entry? entries "level" d.text? (some base.level)
    json := ← entry? entries "json_format" d.bool? (some base.json)
    file := ← entry? entries "file_path" (d.optional? d.text?) (some base.file) }

end LogSettings

namespace Settings

def ofNode? (n : Node) : Option Settings := do
  let entries ← d.entries? n
  let base : Settings := {}
  return {
    kafka := ← entry? entries "kafka" (BrokerSettings.ofNode? d) (some base.kafka)
    consume := ← entry? entries "consume" (ConsumeSettings.ofNode? d) (some base.consume)
    logging := ← entry? entries "logging" (LogSettings.ofNode? d) (some base.logging) }

/-- The settings of a text; one without a document leaves all of them at their defaults. -/
def ofText? (text : String) : Option Settings :=
  match Yaml.Document.ofString? text with
  | none => none
  | some none => some {}
  | some (some d) => ofNode? d d.root

end Settings
end TopicReader
